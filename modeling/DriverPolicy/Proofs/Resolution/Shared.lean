import DriverPolicy.Proofs.Expression.Composition
import DriverPolicy.Proofs.Registry.Entries
import DriverPolicy.Proofs.Resolution.Reduction

/-!
# Handing out shared instances

Retry policies are named and not built. Their resolver has a reader of its own, which trims the
expression and looks at the characters of what is left. On expressions without an opening bracket it
agrees with the reader of calls, though that one looks for blanks, a name and blanks in the text as it
stands; an expression with an opening bracket is refused at the first one.

The name that was read stands for a type, whose shared instance is the outcome. What can go wrong is
the name, then the look-up, then the instance, and nothing else.
-/

namespace DriverPolicy

/-- A text that is a name when it is trimmed is that name with blanks around it. -/
theorem IsName.exists_blanks {text : List Char} (h : IsName (trim text)) :
    ∃ before after, allBlank before ∧ allBlank after ∧ before ++ (trim text ++ after) = text := by
  have hblank : ¬allBlank text := fun hall => h.nonempty (trim_eq_nil hall)
  obtain ⟨-, after, hafter, htext⟩ := exists_eq_trim_append (Bool.not_eq_true _ ▸ hblank)
  exact ⟨_, after, List.all_takeWhile, hafter, by rw [← List.append_assoc, ← htext]⟩

namespace Call

variable {source : List Char} {call : Call}

/-- Reading a bare name by cases of the trimmed text and of the brackets in the whole. -/
theorem readBareName_eq_ite (source : List Char) : readBareName source =
    if IsName (trim source) then .ok ⟨String.ofList (trim source), []⟩
    else if '(' ∈ source then
      malformed (.takesNoArguments (String.ofList (trim source))) source
        (source.takeWhile (· ≠ '(')).length
    else malformed (.notAPolicyName (String.ofList (trim source))) source 0 := by
  have hname : (trim source ≠ [] && (trim source).all isNameChar) = true ↔ IsName (trim source) := by
    rw [Bool.and_eq_true, decide_eq_true_eq, List.all_eq_true]
    exact ⟨fun h => ⟨h.1, h.2⟩, fun h => ⟨h.nonempty, h.chars⟩⟩
  have hbracket : (trim source).contains '(' = true ↔ '(' ∈ source :=
    List.contains_iff_mem.trans (mem_trim_iff (by decide))
  simp only [readBareName, hname, hbracket]

/-- A bare name is accepted just if the trimmed text is one. -/
theorem readBareName_eq_ok_iff : readBareName source = .ok call ↔
    IsName (trim source) ∧ ⟨String.ofList (trim source), []⟩ = call := by
  rw [readBareName_eq_ite]
  split
  · next hname => simp [hname]
  · next hname =>
    simp only [hname, false_and, iff_false]
    split <;> simp [malformed]

/-- An opening bracket is refused where the first one stands. -/
theorem readBareName_bracket {before after : List Char} (hbefore : '(' ∉ before) :
    readBareName (before ++ '(' :: after) =
      malformed (.takesNoArguments (String.ofList (trim (before ++ '(' :: after))))
        (before ++ '(' :: after) before.length := by
  have hmem : '(' ∈ before ++ '(' :: after := by simp
  have hname : ¬IsName (trim (before ++ '(' :: after)) := fun h =>
    absurd (h.chars '(' ((mem_trim_iff (by decide)).mpr hmem)) (by decide)
  have hbefore' : ∀ c ∈ before, decide (c ≠ '(') = true := fun c hc => by
    simpa using fun h : c = '(' => hbefore (h ▸ hc)
  rw [readBareName_eq_ite, if_neg hname, if_pos hmem, (skip_append hbefore' (by simp)).1]

/-- Without an opening bracket a text is a call if and only if it is a name when it is trimmed. -/
theorem read_eq_ok_iff_isName (hbracket : '(' ∉ source) : read source = .ok call ↔
    IsName (trim source) ∧ ⟨String.ofList (trim source), []⟩ = call := by
  rw [read_eq_meaning]
  constructor
  · intro h
    have hmeaning := h
    rw [meaning_eq] at hmeaning
    obtain ⟨head, hhead, -⟩ := bind_eq_ok_iff.mp hmeaning
    cases Head.read_eq_ok_iff.mp hhead with
    | bare hbefore hname hafter htext =>
      subst htext
      rw [Head.Shows.trim_bare hbefore hname hafter]
      exact ⟨hname, Except.ok.inj ((meaning_bare hbefore hname hafter _ 0).symm.trans h)⟩
    | bracketed _ _ _ _ htext => exact absurd (htext ▸ by simp) hbracket
  · rintro ⟨hname, rfl⟩
    obtain ⟨before, after, hbefore, hafter, htext⟩ := hname.exists_blanks
    have hmeaning := meaning_bare hbefore hname hafter source 0
    rwa [htext] at hmeaning

end Call

namespace Resolver

variable {resolver : Resolver} {expression : String} {type : PolicyType}

/-- The type that an expression names: trimmed it is a name, and the type is registered under that name
with the namespace of the resolver where the name has none. -/
structure NamesType (resolver : Resolver) (expression : String) (type : PolicyType) : Prop where
  isName : IsName (trim expression.toList)
  registered : type ∈ resolver.registry.entries
  qualifiedName_eq : type.qualifiedName = qualifyName (trimmed expression) resolver.namespaceName

/-- Why an expression names no shared instance. The first of these reasons is the one that is given: the
expression has an opening bracket, or is no name for another reason; the name is not registered, or
registered in another family; the type has no shared instance. -/
inductive LacksShared (resolver : Resolver) (expression : String) : ResolutionFailure → Prop
  | bracket {before after : List Char} (hbefore : '(' ∉ before)
      (htext : before ++ '(' :: after = expression.toList) :
      LacksShared resolver expression (.fault (.expression
        ⟨.malformed (.takesNoArguments (trimmed expression)), expression, before.length⟩))
  | noName (hbracket : '(' ∉ expression.toList) (hname : ¬IsName (trim expression.toList)) :
      LacksShared resolver expression (.fault (.expression
        ⟨.malformed (.notAPolicyName (trimmed expression)), expression, 0⟩))
  | unknown (hname : IsName (trim expression.toList))
      (hnone : ∀ type, ¬NamesType resolver expression type) :
      LacksShared resolver expression
        (.fault (.unknownPolicy (qualifyName (trimmed expression) resolver.namespaceName)))
  | otherFamily {type : PolicyType} (htype : NamesType resolver expression type)
      (hfamily : type.family ≠ .retry) :
      LacksShared resolver expression
        (.fault (.familyMismatch type.qualifiedName Family.retry.name type.family.name))
  | noInstance {type : PolicyType} (htype : NamesType resolver expression type)
      (hfamily : type.family = .retry) (hshared : type.shared? = none) :
      LacksShared resolver expression (.fault (.missingInstance type.qualifiedName))

/-- The resolver of retry policies reads bare names. -/
theorem read_of_retry (hretry : resolver.family = .retry) (expression : String) :
    resolver.read expression = Call.readBareName expression.toList := if_pos hretry

/-- An expression that is no name has no policy. -/
theorem policyOf_of_malformed {malformation : Malformation} {position : Int}
    (hread : resolver.read expression = malformed malformation expression.toList position) :
    resolver.policyOf expression =
      .error (.fault (.expression ⟨.malformed malformation, expression, position⟩)) := by
  rw [policyOf_eq, hread, malformed, String.ofList_toList]
  rfl

/-- The policy of a name is the shared instance of what the name stands for. -/
theorem policyOf_of_isName (hretry : resolver.family = .retry)
    (hname : IsName (trim expression.toList)) : resolver.policyOf expression =
      resolver.typeOf (trimmed expression) >>= PolicyType.requireShared := by
  have hread : resolver.read expression = .ok ⟨trimmed expression, []⟩ :=
    (read_of_retry hretry expression).trans (Call.readBareName_eq_ok_iff.mpr ⟨hname, rfl⟩)
  simp only [policyOf_of_read hread, policyGiven, if_pos hretry]

namespace NamesType

/-- The name stands for the type that it names, if the type is one of a retry policy. -/
theorem typeOf_eq (hretry : resolver.family = .retry) (h : NamesType resolver expression type) :
    resolver.typeOf (trimmed expression) =
      if type.family = .retry then .ok type
      else .error (.fault
        (.familyMismatch type.qualifiedName Family.retry.name type.family.name)) := by
  have hfind : resolver.registry.find? type.qualifiedName = some type :=
    Registry.find?_eq_some_iff.mpr ⟨h.registered, rfl⟩
  rw [typeOf, ← h.qualifiedName_eq, hretry, Registry.lookup_of_find?_eq_some hfind]

/-- The policy is the shared instance of a type that is named, if the type is one of a retry policy. -/
theorem policyOf_eq (hretry : resolver.family = .retry) (h : NamesType resolver expression type)
    (hfamily : type.family = .retry) : resolver.policyOf expression = type.requireShared := by
  rw [policyOf_of_isName hretry h.isName, h.typeOf_eq hretry, if_pos hfamily, ok_bind]

end NamesType

/-- A name under which nothing is registered is unknown. -/
theorem typeOf_of_forall_not_namesType (hname : IsName (trim expression.toList))
    (hnone : ∀ type, ¬NamesType resolver expression type) :
    resolver.typeOf (trimmed expression) = .error (.fault
      (.unknownPolicy (qualifyName (trimmed expression) resolver.namespaceName))) := by
  refine Registry.lookup_of_contains_eq_false (Registry.contains_eq_false_iff.mpr fun hmem => ?_) _
  obtain ⟨type, hregistered, hqualified⟩ := List.mem_map.mp hmem
  exact hnone type ⟨hname, hregistered, hqualified⟩

/-- What stands in the way of a shared instance is the failure of the resolution. -/
theorem LacksShared.policyOf_eq (hretry : resolver.family = .retry) {failure : ResolutionFailure}
    (h : LacksShared resolver expression failure) :
    resolver.policyOf expression = .error failure := by
  cases h with
  | bracket hbefore htext =>
    refine policyOf_of_malformed ?_
    rw [read_of_retry hretry, trimmed, ← htext]
    exact Call.readBareName_bracket hbefore
  | noName hbracket hname =>
    refine policyOf_of_malformed ?_
    rw [read_of_retry hretry, Call.readBareName_eq_ite, if_neg hname, if_neg hbracket]
    rfl
  | unknown hname hnone =>
    rw [policyOf_of_isName hretry hname, typeOf_of_forall_not_namesType hname hnone, error_bind]
  | otherFamily htype hfamily =>
    rw [policyOf_of_isName hretry htype.isName, htype.typeOf_eq hretry, if_neg hfamily, error_bind]
  | noInstance htype hfamily hshared =>
    rw [htype.policyOf_eq hretry hfamily, PolicyType.requireShared, hshared]

/-- A shared instance is named, or something stands in the way. -/
theorem namesType_or_lacksShared (resolver : Resolver) (expression : String) :
    (∃ type policy, NamesType resolver expression type ∧ type.family = .retry ∧
      type.shared? = some policy) ∨ ∃ failure, LacksShared resolver expression failure := by
  by_cases hname : IsName (trim expression.toList)
  · by_cases hnone : ∀ type, ¬NamesType resolver expression type
    · exact Or.inr ⟨_, .unknown hname hnone⟩
    · obtain ⟨type, htype⟩ := not_forall_not.mp hnone
      by_cases hfamily : type.family = .retry
      · cases hshared : type.shared? with
        | none => exact Or.inr ⟨_, .noInstance htype hfamily hshared⟩
        | some policy => exact Or.inl ⟨type, policy, htype, hfamily, hshared⟩
      · exact Or.inr ⟨_, .otherFamily htype hfamily⟩
  · by_cases hbracket : '(' ∈ expression.toList
    · obtain ⟨before, after, htext, hbefore⟩ := List.eq_append_cons_of_mem hbracket
      exact Or.inr ⟨_, .bracket hbefore htext.symm⟩
    · exact Or.inr ⟨_, .noName hbracket hname⟩

/-- The resolver of retry policies reads an expression without an opening bracket as a call just if it is
read so in general, and as the same one; it refuses every other expression at its first opening bracket.
So, whatever types are registered and whatever the namespace is, a policy comes out if and only if the
expression names a type of a retry policy that has a shared instance, and it is this instance; what
comes out else is the first thing that stands in the way. -/
theorem policyOf_retry_iff (hretry : resolver.family = .retry) (expression : String) :
    ('(' ∉ expression.toList → ∀ call,
      resolver.read expression = .ok call ↔ Call.parse expression = .ok call) ∧
    (∀ before after, '(' ∉ before → before ++ '(' :: after = expression.toList →
      resolver.read expression = .error (.expression
        ⟨.malformed (.takesNoArguments (trimmed expression)), expression, before.length⟩)) ∧
    (∀ policy, resolver.policyOf expression = .ok policy ↔
      ∃ type, NamesType resolver expression type ∧ type.family = .retry ∧
        type.shared? = some policy) ∧
    ∀ failure, resolver.policyOf expression = .error failure ↔
      LacksShared resolver expression failure := by
  have hshares {type : PolicyType} {policy : Policy} (htype : NamesType resolver expression type)
      (hfamily : type.family = .retry) (hshared : type.shared? = some policy) :
      resolver.policyOf expression = .ok policy := by
    rw [htype.policyOf_eq hretry hfamily, PolicyType.requireShared, hshared]
  refine ⟨fun hbracket call => ?_, fun before after hbefore htext => ?_, fun policy => ⟨fun h => ?_, ?_⟩,
    fun failure => ⟨fun h => ?_, fun h => h.policyOf_eq hretry⟩⟩
  · rw [read_of_retry hretry, Call.readBareName_eq_ok_iff, Call.parse,
      Call.read_eq_ok_iff_isName hbracket]
  · rw [read_of_retry hretry, trimmed, ← htext, Call.readBareName_bracket hbefore, malformed, htext,
      String.ofList_toList]
  · rcases namesType_or_lacksShared resolver expression with
      ⟨type, shared, htype, hfamily, hshared⟩ | ⟨failure, hlacks⟩
    · obtain rfl := Except.ok.inj ((hshares htype hfamily hshared).symm.trans h)
      exact ⟨type, htype, hfamily, hshared⟩
    · exact absurd (h.symm.trans (hlacks.policyOf_eq hretry)) (by simp)
  · rintro ⟨type, htype, hfamily, hshared⟩
    exact hshares htype hfamily hshared
  · rcases namesType_or_lacksShared resolver expression with
      ⟨type, shared, htype, hfamily, hshared⟩ | ⟨given, hlacks⟩
    · exact absurd (h.symm.trans (hshares htype hfamily hshared)) (by simp)
    · exact Except.error.inj ((hlacks.policyOf_eq hretry).symm.trans h) ▸ hlacks

/-- The shared instance of a built-in policy is handed out for its name with blanks around it, and refused
where brackets follow, even if nothing is between them. -/
theorem policyOf_retry_blanks_and_brackets :
    Call.parse " DefaultRetryPolicy\n" = .ok ⟨"DefaultRetryPolicy", []⟩ ∧
    (standard .retry).policyOf " DefaultRetryPolicy\n" = .ok .defaultRetry ∧
    (standard .retry).policyOf "DefaultRetryPolicy()" = .error (.fault (.expression
      ⟨.malformed (.takesNoArguments "DefaultRetryPolicy()"), "DefaultRetryPolicy()", 18⟩)) := by
  obtain ⟨hparse, -, hpolicy, -⟩ :=
    policyOf_retry_iff (rfl : (standard .retry).family = .retry) " DefaultRetryPolicy\n"
  obtain ⟨-, -, -, hfailure⟩ :=
    policyOf_retry_iff (rfl : (standard .retry).family = .retry) "DefaultRetryPolicy()"
  have htype : NamesType (standard .retry) " DefaultRetryPolicy\n"
      (PolicyClass.defaultRetry.builtinType defaultNamespace) :=
    ⟨by decide, List.mem_map_of_mem (by decide), rfl⟩
  have hlacks := @LacksShared.bracket (standard .retry) "DefaultRetryPolicy()"
    "DefaultRetryPolicy".toList ")".toList (by decide) rfl
  exact ⟨(hparse (by decide) _).mp rfl, (hpolicy _).mpr ⟨_, htype, rfl, rfl⟩, (hfailure _).mpr hlacks⟩

end Resolver

end DriverPolicy
