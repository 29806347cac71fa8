import SqlSnapshot.Proofs.Filter.Names
import SqlSnapshot.Proofs.NameOrder

/-!
# What a filter asks for

A token without wildcards asks for procedures by name.  The procedures that no such token finds, and
those that such tokens find outside the allowed schemas alone, come as lists without repeats, in the
order of names.  Tokens with wildcards ask for nothing in particular and are on neither list.
-/

namespace SqlSnapshot

/-- The list has each of the descriptors once, in their order, and no other. -/
structure Descriptor.Lists (ds : List Descriptor) (P : Descriptor → Prop) : Prop where
  sorted : ds.Pairwise fun d e => d.isBefore e = true
  sound : ∀ d ∈ ds, P d
  complete : ∀ d, P d → ∃! e, e ∈ ds ∧ e.same d = true

theorem Descriptor.Lists.congr
    {ds : List Descriptor} {P Q : Descriptor → Prop} (h : Lists ds P) (hiff : ∀ d, P d ↔ Q d) :
    Lists ds Q :=
  have heq : P = Q := funext fun d => propext (hiff d)
  heq ▸ h

theorem Descriptor.lists_sortedDistinct
    {ds : List Descriptor} {P : Descriptor → Prop} (h : ∀ d, d ∈ ds ↔ P d) :
    Lists (sortedDistinct ds) P where
  sorted := (pairwise_sortedDistinctBy orderedBy ds).imp fun hlt => (isBefore_iff _ _).mpr hlt
  sound d hd := (h d).mp (mem_of_mem_sortedDistinctBy hd)
  complete := by
    intro d hd
    obtain ⟨e, he, hkey⟩ := exists_mem_sortedDistinctBy orderedBy ((h d).mpr hd)
    refine ⟨e, ⟨he, (same_iff e d).mpr hkey⟩, ?_⟩
    rintro f ⟨hf, hsame⟩
    have hkeys : f.orderKey = e.orderKey := ((same_iff f d).mp hsame).trans hkey.symm
    exact eq_of_pairwise_ne ((pairwise_sortedDistinctBy orderedBy ds).imp ne_of_lt) hf he hkeys

/-! ## Exact tokens -/

/-- What stands in a filter text for itself. -/
def NamePattern.exactOf (token : List Char) : NamePattern :=
  .exact (.parse (String.ofList token)) (Descriptor.parseQualified? (String.ofList token)).isSome

/-- The tokens of the filter text that have no wildcard. -/
def Options.exactTokens (o : Options) : List (List Char) :=
  ((o.procedures.map NameFilter.tokens).getD []).filter fun token =>
    !token.any fun c => c == '*' || c == '?'

namespace NamePattern

theorem ofToken?_eq_exact_iff
    {token : List Char} {wanted : Descriptor} {qualified : Bool} :
    ofToken? token = some (.exact wanted qualified) ↔
      (token.any fun c => c == '*' || c == '?') = false ∧
        exactOf token = .exact wanted qualified := by
  unfold ofToken? exactOf
  dsimp only
  cases token.any fun c => c == '*' || c == '?' with
  | true =>
    simp only [if_true]
    split <;> simp
  | false => simp

end NamePattern

namespace NameFilter

variable {o : Options}

theorem exact_mem_patterns_iff
    {wanted : Descriptor} {qualified : Bool} :
    .exact wanted qualified ∈ (ofOptions o).patterns ↔
      ∃ token ∈ o.exactTokens, NamePattern.exactOf token = .exact wanted qualified := by
  simp only [ofOptions, List.mem_filterMap, NamePattern.ofToken?_eq_exact_iff,
    Options.exactTokens, List.mem_filter, Bool.not_eq_true', and_assoc]

theorem wanted?_eq_some_iff
    {p : NamePattern} {d : Descriptor} :
    p.wanted? = some d ↔ ∃ qualified, p = .exact d qualified := by
  cases p <;> simp [NamePattern.wanted?]

/-- Missing is what exact tokens name that find no procedure. -/
theorem lists_missing
    (o : Options) (procedures : List Descriptor) :
    Descriptor.Lists ((ofOptions o).missing procedures) fun d =>
      ∃ token ∈ o.exactTokens, d = .parse (String.ofList token) ∧
        ∀ e ∈ procedures, (NamePattern.exactOf token).accepts e = false := by
  apply Descriptor.lists_sortedDistinct
  intro d
  have hfound : ∀ p : NamePattern, (!procedures.any p.accepts) = true ↔
      ∀ e ∈ procedures, p.accepts e = false := by
    simp
  simp only [List.mem_filterMap, Option.filter_eq_some_iff, wanted?_eq_some_iff, hfound]
  constructor
  · rintro ⟨p, hp, ⟨qualified, rfl⟩, hnone⟩
    obtain ⟨token, htoken, hexact⟩ := exact_mem_patterns_iff.mp hp
    refine ⟨token, htoken, ?_, hexact ▸ hnone⟩
    rw [NamePattern.exactOf, NamePattern.exact.injEq] at hexact
    exact hexact.1.symm
  · rintro ⟨token, htoken, rfl, hnone⟩
    exact ⟨_, exact_mem_patterns_iff.mpr ⟨token, htoken, rfl⟩, ⟨_, rfl⟩, hnone⟩

theorem mem_rejectedBy_iff
    {f : NameFilter} {procedures : List Descriptor} {p : NamePattern} {d : Descriptor} :
    d ∈ f.rejectedBy procedures p ↔
      p.wanted?.isSome = true ∧ (d ∈ procedures ∧ p.accepts d = true) ∧
        ∀ e ∈ procedures, p.accepts e = true → f.allowsSchema e.schema = false := by
  simp only [rejectedBy, List.mem_ite_nil_right, Bool.and_eq_true, List.all_eq_true,
    List.mem_filter, Bool.not_eq_true', and_imp]
  tauto

/-- Rejected is what exact tokens find that find nothing in the allowed schemas. -/
theorem lists_rejected
    (o : Options) (procedures : List Descriptor) :
    Descriptor.Lists ((ofOptions o).rejected procedures) fun d =>
      d ∈ procedures ∧ ∃ token ∈ o.exactTokens, (NamePattern.exactOf token).accepts d = true ∧
        ∀ e ∈ procedures, (NamePattern.exactOf token).accepts e = true →
          (ofOptions o).allowsSchema e.schema = false := by
  apply Descriptor.lists_sortedDistinct
  intro d
  simp only [List.mem_flatMap, mem_rejectedBy_iff, Option.isSome_iff_exists, wanted?_eq_some_iff]
  constructor
  · rintro ⟨p, hp, ⟨wanted, qualified, rfl⟩, ⟨hd, haccepts⟩, hall⟩
    obtain ⟨token, htoken, hexact⟩ := exact_mem_patterns_iff.mp hp
    rw [← hexact] at haccepts hall
    exact ⟨hd, token, htoken, haccepts, hall⟩
  · rintro ⟨hd, token, htoken, haccepts, hall⟩
    exact ⟨_, exact_mem_patterns_iff.mpr ⟨token, htoken, rfl⟩, ⟨_, _, rfl⟩, ⟨hd, haccepts⟩, hall⟩

theorem accepts_of_exactOf
    {token : List Char} (htoken : token ∈ o.exactTokens) {d : Descriptor}
    (hallowed : (ofOptions o).allowsSchema d.schema = true)
    (hfound : (NamePattern.exactOf token).accepts d = true) :
    (ofOptions o).accepts d = true := by
  have hname : (ofOptions o).patterns.any (·.accepts d) = true :=
    List.any_eq_true.mpr ⟨_, exact_mem_patterns_iff.mpr ⟨token, htoken, rfl⟩, hfound⟩
  rw [accepts, allowsName, hallowed, hname]
  simp

end NameFilter

end SqlSnapshot
