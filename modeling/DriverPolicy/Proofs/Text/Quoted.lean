import DriverPolicy.Text.Quoted
import Mathlib.Data.String.Basic

/-!
# Quoted texts are read back

A text between quotes shows printable characters only, so it stands on one line. Each character of a text is
written so that it can be told from what follows, an escaped one by the letter behind the backslash and the
number of digits that the letter announces. The text can therefore be read back from between its quotes, and
no two texts look the same.
-/

namespace DriverPolicy

/-- The value of a small hexadecimal digit. -/
def hexDigitValue (c : Char) : Nat := if c.toNat < 58 then c.toNat - 48 else c.toNat - 87

/-- The number that hexadecimal digits write. -/
def hexValue (digits : List Char) : Nat := digits.foldl (fun value c => 16 * value + hexDigitValue c) 0

/-- The digits of a number are those below the base. -/
theorem exists_digitChar_of_mem {base n : Nat} (hbase : 1 < base) {c : Char}
    (h : c ∈ Nat.toDigits base n) : ∃ d < base, c = Nat.digitChar d := by
  induction n using Nat.strongRecOn with
  | ind n ih =>
    rw [Nat.toDigits_eq_if hbase] at h
    split at h
    · next hlt => exact ⟨n, hlt, List.mem_singleton.mp h⟩
    · next hge =>
      rcases List.mem_append.mp h with hfirst | hlast
      · exact ih (n / base) (Nat.div_lt_self (by omega) hbase) hfirst
      · exact ⟨n % base, Nat.mod_lt n (by omega), List.mem_singleton.mp hlast⟩

/-- Hexadecimal digits write their number. -/
theorem hexValue_toDigits (n : Nat) : hexValue (Nat.toDigits 16 n) = n := by
  have hvalue : ∀ d < 16, hexDigitValue (Nat.digitChar d) = d := by decide
  induction n using Nat.strongRecOn with
  | ind n ih =>
    rw [Nat.toDigits_eq_if (by decide)]
    split
    · next hlt => simpa [hexValue] using hvalue n hlt
    · next hge =>
      have hlast := hvalue (n % 16) (Nat.mod_lt n (by decide))
      have hfirst := ih (n / 16) (Nat.div_lt_self (by omega) (by decide))
      rw [hexValue] at hfirst ⊢
      rw [List.foldl_append, hfirst, List.foldl_cons, List.foldl_nil, hlast]
      omega

/-- As many digits are written as are asked for if they suffice, and they write the number. -/
theorem hexDigits_spec {width n : Nat} (hwidth : 0 < width) (h : n < 16 ^ width) :
    (hexDigits width n).length = width ∧ hexValue (hexDigits width n) = n := by
  have hlength := (Nat.length_toDigits_le_iff (by decide) hwidth).mpr h
  refine ⟨?_, ?_⟩
  · rw [hexDigits, List.length_append, List.length_replicate, Nat.sub_add_cancel hlength]
  · have hzeros (count : Nat) : (List.replicate count '0').foldl
        (fun value c => 16 * value + hexDigitValue c) 0 = 0 := by
      induction count with
      | zero => rfl
      | succ count ih => exact ih
    rw [hexDigits, hexValue, List.foldl_append, hzeros]
    exact hexValue_toDigits n

/-- The first character that is written between quotes, and what follows. -/
def unquoteChar : List Char → Option (Char × List Char)
  | [] => none
  | c :: rest =>
    if c ≠ '\\' then some (c, rest)
    else match rest with
      | [] => none
      | 'n' :: rest => some ('\n', rest)
      | 'r' :: rest => some ('\r', rest)
      | 't' :: rest => some ('\t', rest)
      | 'x' :: rest => some (Char.ofNat (hexValue (rest.take 2)), rest.drop 2)
      | 'u' :: rest => some (Char.ofNat (hexValue (rest.take 4)), rest.drop 4)
      | 'U' :: rest => some (Char.ofNat (hexValue (rest.take 8)), rest.drop 8)
      | c :: rest => some (c, rest)

/-- A quote is an apostrophe or a quotation mark. -/
theorem quoteFor_eq (text : List Char) : quoteFor text = '\'' ∨ quoteFor text = '"' := by
  unfold quoteFor
  split
  · exact Or.inr rfl
  · exact Or.inl rfl

/-- A character is read back from what is written for it, whatever follows. -/
theorem unquoteChar_quotedChar {quote : Char} (hquote : quote = '\'' ∨ quote = '"') (c : Char)
    (rest : List Char) : unquoteChar (quotedChar quote c ++ rest) = some (c, rest) := by
  have hcode (width : Nat) (hwidth : 0 < width) (h : c.toNat < 16 ^ width) :
      Char.ofNat (hexValue ((hexDigits width c.toNat ++ rest).take width)) = c ∧
        (hexDigits width c.toNat ++ rest).drop width = rest := by
    obtain ⟨hlength, hvalue⟩ := hexDigits_spec hwidth h
    rw [List.take_left' hlength, List.drop_left' hlength, hvalue]
    exact ⟨Char.ofNat_toNat c, rfl⟩
  have hlimit : c.toNat < 16 ^ 8 := by
    have hvalid : c.toNat < 0xd800 ∨ 0xdfff < c.toNat ∧ c.toNat < 0x110000 := c.valid
    omega
  unfold quotedChar
  split
  · next hself =>
    have hself : c = quote ∨ c = '\\' := by simpa using hself
    rcases hself with rfl | rfl
    · rcases hquote with rfl | rfl <;> rfl
    · rfl
  next hself =>
  have hplain : c ≠ '\\' := fun hc => hself (by simp [hc])
  split
  · next hc => subst hc; rfl
  split
  · next hc => subst hc; rfl
  split
  · next hc => subst hc; rfl
  split
  · rw [List.singleton_append]
    unfold unquoteChar
    exact if_pos hplain
  split
  · next h =>
    obtain ⟨htake, hdrop⟩ := hcode 2 (by decide) h
    simp only [unquoteChar, List.cons_append, ne_eq, not_true_eq_false, if_false, htake, hdrop]
  split
  · next h =>
    obtain ⟨htake, hdrop⟩ := hcode 4 (by decide) h
    simp only [unquoteChar, List.cons_append, ne_eq, not_true_eq_false, if_false, htake, hdrop]
  · obtain ⟨htake, hdrop⟩ := hcode 8 (by decide) hlimit
    simp only [unquoteChar, List.cons_append, ne_eq, not_true_eq_false, if_false, htake, hdrop]

/-- Texts that are written alike between quotes are the same. -/
theorem flatMap_quotedChar_injective {quote : Char} (hquote : quote = '\'' ∨ quote = '"')
    {text other : List Char} (h : text.flatMap (quotedChar quote) = other.flatMap (quotedChar quote)) :
    text = other := by
  have hread := unquoteChar_quotedChar hquote
  induction text generalizing other with
  | nil =>
    cases other with
    | nil => rfl
    | cons d other =>
      have hfirst := hread d (other.flatMap (quotedChar quote))
      rw [← List.flatMap_cons, ← h] at hfirst
      contradiction
  | cons c text ih =>
    have hfirst := hread c (text.flatMap (quotedChar quote))
    rw [← List.flatMap_cons, h] at hfirst
    cases other with
    | nil => contradiction
    | cons d other =>
      rw [List.flatMap_cons, hread] at hfirst
      obtain ⟨rfl, hrest⟩ := Prod.mk.inj (Option.some.inj hfirst)
      rw [ih hrest.symm]

/-- No two strings look the same between quotes. -/
theorem quoted_injective {s t : String} (h : quoted s = quoted t) : s = t := by
  have hchars : quotedChars s.toList = quotedChars t.toList := String.ofList_injective h
  obtain ⟨hquote, hbody⟩ := List.cons.inj hchars
  rw [hquote] at hbody
  exact String.toList_injective
    (flatMap_quotedChar_injective (quoteFor_eq t.toList) (List.append_cancel_right hbody))

/-- Quotes are printable. -/
theorem isPrintable_quote {quote : Char} (hquote : quote = '\'' ∨ quote = '"') : isPrintable quote := by
  rcases hquote with rfl | rfl <;> decide

/-- What is written for a character between quotes is printable. -/
theorem isPrintable_of_mem_quotedChar {quote : Char} (hquote : quote = '\'' ∨ quote = '"') {c d : Char}
    (h : d ∈ quotedChar quote c) : isPrintable d := by
  have hdigit : ∀ d < 16, isPrintable (Nat.digitChar d) := by decide
  have hhex {width : Nat} (hd : d ∈ hexDigits width c.toNat) : isPrintable d := by
    rcases List.mem_append.mp hd with hzero | hdigits
    · rw [List.eq_of_mem_replicate hzero]
      decide
    · obtain ⟨n, hn, rfl⟩ := exists_digitChar_of_mem (by decide) hdigits
      exact hdigit n hn
  have hquoted := isPrintable_quote hquote
  have hescape {letter : Char} {digits : List Char} (hletter : isPrintable letter)
      (hdigits : d ∈ digits → isPrintable d) (hd : d ∈ '\\' :: letter :: digits) : isPrintable d := by
    rcases List.mem_cons.mp hd with rfl | hd
    · decide
    rcases List.mem_cons.mp hd with rfl | hd
    · exact hletter
    · exact hdigits hd
  unfold quotedChar at h
  split at h
  · next hself =>
    have hself : c = quote ∨ c = '\\' := by simpa using hself
    have hletter : isPrintable c := by
      rcases hself with rfl | rfl
      · exact hquoted
      · decide
    exact hescape hletter (fun hd => absurd hd List.not_mem_nil) h
  split at h
  · exact hescape (by decide) (fun hd => absurd hd List.not_mem_nil) h
  split at h
  · exact hescape (by decide) (fun hd => absurd hd List.not_mem_nil) h
  split at h
  · exact hescape (by decide) (fun hd => absurd hd List.not_mem_nil) h
  split at h
  · next hprintable => exact List.mem_singleton.mp h ▸ hprintable
  split at h
  · exact hescape (by decide) hhex h
  split at h
  · exact hescape (by decide) hhex h
  · exact hescape (by decide) hhex h

/-- A text between quotes shows printable characters only. -/
theorem isPrintable_of_mem_quoted {s : String} {c : Char} (h : c ∈ (quoted s).toList) : isPrintable c := by
  have hquote := quoteFor_eq s.toList
  have hquoted := isPrintable_quote hquote
  rw [quoted, String.toList_ofList, quotedChars] at h
  rcases List.mem_append.mp h with h | h
  · rcases List.mem_cons.mp h with rfl | h
    · exact hquoted
    · obtain ⟨d, -, hd⟩ := List.mem_flatMap.mp h
      exact isPrintable_of_mem_quotedChar hquote hd
  · exact List.mem_singleton.mp h ▸ hquoted

end DriverPolicy
