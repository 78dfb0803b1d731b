import DriverPolicy.Logging.Record
import DriverPolicy.Proofs.Attempt

/-!
# Messages of events

An event is logged as a template and values, and the message is filled in when the record is
written. The templates are made of texts without percent signs, each but the last with a directive
behind it that writes a value as it displays. So filling one in puts the values between the texts,
which gives the message of the event.
-/

namespace DriverPolicy

namespace Filling

/-- A directive of one letter writes the next value. -/
def simple (letter : Char) : Directive := ⟨.none, Directive.flagsOf [], none, none, some letter, 1⟩

/-- The letter of the directive that writes a value as it displays. -/
def letterFor : Json → Char
  | .integer _ => 'd'
  | _ => 's'

/-- The template of texts with a value behind each, and a text at the end. -/
def template (last : String) : List (String × Json) → List Char
  | [] => last.toList
  | (text, value) :: rest => text.toList ++ '%' :: letterFor value :: template last rest

/-- The texts with the values in between. -/
def filled (last : String) : List (String × Json) → List Char
  | [] => last.toList
  | (text, value) :: rest => text.toList ++ value.display.toList ++ filled last rest

/-- A directive that is its letter alone is read as such. -/
theorem read_letterFor (value : Json) (rest : List Char) :
    Directive.read (letterFor value :: rest) = simple (letterFor value) := by
  have htext : Directive.read ('s' :: rest) = simple 's' := rfl
  have hinteger : Directive.read ('d' :: rest) = simple 'd' := rfl
  cases value with
  | integer n => exact hinteger
  | _ => exact htext

/-- An integer displays as its sign and its digits. -/
theorem toList_toString_int (n : Int) :
    (toString n).toList = (if n < 0 then ['-'] else []) ++ Nat.toDigits 10 n.natAbs := by
  cases n with
  | ofNat m =>
    rw [if_neg (by simp)]
    exact Nat.toList_repr
  | negSucc m =>
    rw [if_pos (by omega), Int.toString_eq_repr, Int.repr_eq_if, if_neg (by omega)]
    simp

/-- A field without flags and a width is its parts, one behind the other. -/
theorem write_no_width (parts : FieldParts) :
    parts.write false false 0 = parts.sign ++ parts.mark ++ parts.body := by
  simp [FieldParts.write]

/-- In the form of its directive, a value is written as it displays. -/
theorem writeValue_letterFor (value : Json) (index : Nat) :
    (Directive.flagsOf []).writeValue 0 none (letterFor value) index value =
      .ok value.display.toList := by
  cases value with
  | integer n =>
    have hdisplay : (Json.integer n).display = toString n := rfl
    rw [hdisplay, toList_toString_int]
    change Except.ok (FieldParts.write _ false false 0) = _
    rw [write_no_width]
    simp [FieldFlags.integerParts, FieldFlags.signOf, Directive.flagsOf, letterFor]
  | _ =>
    change Except.ok (FieldParts.write _ false false 0) = _
    rw [write_no_width]
    rfl

/-- The directive for a value writes the value as it displays. -/
theorem run_directive_letterFor (value : Json) (whole : Option Json) (pending : List Json)
    (index : Nat) : (directive (simple (letterFor value)) index).run ⟨whole, value :: pending⟩ =
      .ok (value.display.toList, ⟨whole, pending⟩) := by
  have hletter : letterFor value ≠ '%' := by cases value <;> simp [letterFor]
  rw [directive, if_neg (by simp [simple, hletter])]
  change (do
    let text ← (Directive.flagsOf []).writeValue 0 none (letterFor value) (index + 1) value
    return (text, Supply.mk whole pending) : Except TemplateFault _) = _
  rw [writeValue_letterFor, ok_bind]
  rfl

/-- Text without percent signs is written as it stands. -/
theorem run_parts_chars (text : List Char) (rest : List TemplatePart) (supply : Supply) :
    (parts (text.map .char ++ rest)).run supply =
      (parts rest).run supply >>= fun (written, left) => .ok (text ++ written, left) := by
  induction text with
  | nil =>
    rw [List.map_nil, List.nil_append]
    cases (parts rest).run supply <;> rfl
  | cons c text ih =>
    change ((parts (text.map .char ++ rest)).run supply >>= fun (written, left) =>
      .ok (c :: written, left)) = _
    rw [ih]
    cases (parts rest).run supply <;> rfl

/-- The parts of text without percent signs are its characters. -/
theorem templateParts_append {text : List Char} (h : '%' ∉ text) (index : Nat) (rest : List Char) :
    templateParts index (text ++ rest) =
      text.map .char ++ templateParts (index + text.length) rest := by
  induction text generalizing index with
  | nil => rfl
  | cons c text ih =>
    rw [List.mem_cons, not_or] at h
    rw [List.cons_append, templateParts, if_neg (Ne.symm h.1), ih h.2, List.length_cons,
      Nat.add_right_comm]
    rfl

/-- The directive for a value is a part of its own. -/
theorem templateParts_letterFor (value : Json) (index : Nat) (rest : List Char) :
    templateParts index ('%' :: letterFor value :: rest) =
      .directive (simple (letterFor value)) index :: templateParts (index + 2) rest := by
  rw [templateParts, if_pos rfl, read_letterFor]
  rfl

/-- A template is filled by putting the values between its texts. -/
theorem run_parts_template {last : String} {pieces : List (String × Json)}
    (hlast : '%' ∉ last.toList) (h : ∀ piece ∈ pieces, '%' ∉ piece.1.toList) (index : Nat) :
    (parts (templateParts index (template last pieces))).run ⟨none, pieces.map Prod.snd⟩ =
      .ok (filled last pieces, ⟨none, []⟩) := by
  induction pieces generalizing index with
  | nil =>
    have hparts := templateParts_append hlast index []
    rw [List.append_nil] at hparts
    rw [template, hparts, run_parts_chars, templateParts, filled]
    simp [parts]
  | cons piece pieces ih =>
    obtain ⟨hpiece, hpieces⟩ := List.forall_mem_cons.mp h
    obtain ⟨text, value⟩ := piece
    have hdirective (rest : List TemplatePart) :
        (parts (.directive (simple (letterFor value)) (index + text.toList.length) :: rest)).run
            ⟨none, value :: pieces.map Prod.snd⟩ =
          (parts rest).run ⟨none, pieces.map Prod.snd⟩ >>= fun (written, left) =>
            .ok (value.display.toList ++ written, left) := by
      rw [parts, StateT.run_bind, run_directive_letterFor, ok_bind, StateT.run_bind]
      rfl
    rw [template, templateParts_append hpiece, templateParts_letterFor, run_parts_chars,
      List.map_cons, hdirective, ih hpieces, ok_bind, ok_bind, filled, List.append_assoc]

end Filling

open Filling

/-- A template with values is filled by putting them between its texts. -/
theorem fillTemplate_template {last : String} {pieces : List (String × Json)} (hne : pieces ≠ [])
    (hlast : '%' ∉ last.toList) (h : ∀ piece ∈ pieces, '%' ∉ piece.1.toList) :
    fillTemplate (String.ofList (template last pieces)) (.inOrder (pieces.map Prod.snd)) =
      .ok (String.ofList (filled last pieces)) := by
  rw [fillTemplate, TemplateValues.isEmpty, if_neg (by simpa using hne), String.toList_ofList]
  dsimp only
  rw [run_parts_template hlast h, ok_bind]
  rfl

namespace Event

/-- The texts of the message of an event that have a value behind them, with the value. -/
def pieces : Event → List (String × Json)
  | parsed expression root depth =>
    [("Parsed '", .text expression), ("' into ", .text root), (" (depth ", .integer depth)]
  | constructed name kinds =>
    [("Constructed ", .text name), ("(", .text (", ".intercalate kinds))]
  | resolved expression policy => [("Resolved '", .text expression), ("' to ", .text policy)]
  | registryBuilt count => [("Built policy registry with ", .integer count)]
  | configMissing path => [("No config file at ", .text path)]
  | configLoaded path => [("Loaded config from ", .text path)]
  | configIgnored reason => [("Ignoring config file: ", .text reason)]
  | settingFrom key source => [("Config ", .text key), (" set from ", .text source)]
  | logFileRefused path reason =>
    [("Could not open log file ", .text path), (", logging to stderr: ", .text reason)]
  | starting namespaceName level =>
    [("cqlpolicy starting: default_namespace=", .text namespaceName),
      (", log_level=", .text level)]

/-- The text at the end of the message of an event. -/
def ending : Event → String
  | parsed .. | constructed .. => ")"
  | registryBuilt _ => " type(s)"
  | _ => ""

/-- The template of an event is made of its texts. -/
theorem template_eq (event : Event) :
    event.template = String.ofList (Filling.template event.ending event.pieces) := by
  unfold template
  cases event <;>
    · simp only [pieces, ending, Filling.template, letterFor]
      rfl

/-- The values of an event are those between its texts. -/
theorem values_eq (event : Event) : event.values = event.pieces.map Prod.snd := by
  cases event <;> rfl

/-- The message of an event is its texts with the values in between. -/
theorem message_eq (event : Event) :
    event.message = String.ofList (filled event.ending event.pieces) := by
  have htext (text : String) : toString text = text := rfl
  have hcount (n : Nat) : toString (n : Int) = toString n := rfl
  unfold message
  cases event <;>
    simp only [pieces, ending, filled, Json.display, Json.term, htext, hcount,
      String.ofList_append, String.ofList_toList, String.append_assoc, String.append_empty]

end Event

/-- The record of an event has the message of the event. -/
theorem LogRecord.message_ofEvent (event : Event) (created : Instant) :
    (ofEvent event created).message = .ok event.message := by
  have hpieces : event.pieces ≠ [] := by cases event <;> simp [Event.pieces]
  have hending : '%' ∉ event.ending.toList := by cases event <;> simp [Event.ending]
  have htexts : ∀ piece ∈ event.pieces, '%' ∉ piece.1.toList := by
    cases event <;> simp [Event.pieces]
  change (fillTemplate event.template (.inOrder event.values)).mapError _ = _
  rw [event.template_eq, event.values_eq, fillTemplate_template hpieces hending htexts,
    ← event.message_eq]
  rfl

end DriverPolicy
