import SqlSnapshot.Enrichment

/-!
# Enrichment by different look-ups

Enrichment is the same walk over the columns in every monad.  Two look-ups that are related at the
tables that are looked up therefore make related enrichments.  The relation is any that returning a
value and going on preserve: equality of values, or that a step gives a value if it succeeds.
-/

namespace SqlSnapshot

namespace Analysis

/-- The table columns that type the columns of the analysis. -/
def bindings (a : Analysis) : List TableBinding :=
  a.content.resultSets.flatMap fun s => (Column.walkAll s.columns).filterMap (·.tableBinding?)

/-- The analysis with the types of its columns, where `columns?` gives the columns of tables. -/
def enriched (columns? : String → String → Option (List TableColumn)) (a : Analysis) : Analysis :=
  (Id.run (a.enrich (m := Id) fun schema table => columns? schema table)).1

end Analysis

namespace Enrichment

variable {m n : Type → Type} [Monad m] [Monad n]

/-- Returning a value and going on preserve the relation. -/
structure IsSimulation (R : (α : Type) → m α → n α → Prop) : Prop where
  pure : ∀ {α : Type} (a : α), R α (pure a) (pure a)
  bind : ∀ {α β : Type} {x : m α} {y : n α} {f : α → m β} {g : α → n β},
    R α x y → (∀ a, R β (f a) (g a)) → R β (x >>= f) (y >>= g)

variable {R : (α : Type) → m α → n α → Prop} {lookup : Lookup m} {lookup' : Lookup n}

theorem IsSimulation.enrichFacts
    (hR : IsSimulation R) (procedure path : String) (inJson : Bool) (f : ColumnFacts)
    (h : ∀ b, f.tableBinding? = some b → R _ (lookup b.schema b.table) (lookup' b.schema b.table)) :
    R _ (enrichFacts lookup procedure path inJson f)
      (enrichFacts lookup' procedure path inJson f) := by
  unfold Enrichment.enrichFacts
  cases hbinding : f.tableBinding? with
  | none => exact hR.pure _
  | some b => exact hR.bind (h b hbinding) fun _ => hR.pure _

mutual

theorem IsSimulation.enrichColumn
    (hR : IsSimulation R) (procedure path : String) (inJson : Bool) (c : Column)
    (h : ∀ f ∈ c.walk, ∀ b, f.tableBinding? = some b →
      R _ (lookup b.schema b.table) (lookup' b.schema b.table)) :
    R _ (enrichColumn lookup procedure path inJson c)
      (enrichColumn lookup' procedure path inJson c) := by
  cases c with
  | node facts children =>
    rw [Enrichment.enrichColumn, Enrichment.enrichColumn]
    apply hR.bind (hR.enrichFacts procedure path inJson facts (h facts (by simp [Column.walk])))
    intro one
    apply hR.bind (IsSimulation.enrichColumns hR procedure (path ++ ".") true children
      fun f hf => h f (by simp [Column.walk, hf]))
    intro rest
    exact hR.pure _

theorem IsSimulation.enrichColumns
    (hR : IsSimulation R) (procedure parent : String) (inJson : Bool) (cs : List Column)
    (h : ∀ f ∈ Column.walkAll cs, ∀ b, f.tableBinding? = some b →
      R _ (lookup b.schema b.table) (lookup' b.schema b.table)) :
    R _ (enrichColumns lookup procedure parent inJson cs)
      (enrichColumns lookup' procedure parent inJson cs) := by
  cases cs with
  | nil =>
    rw [Enrichment.enrichColumns, Enrichment.enrichColumns]
    exact hR.pure _
  | cons c cs =>
    rw [Enrichment.enrichColumns, Enrichment.enrichColumns]
    apply hR.bind (IsSimulation.enrichColumn hR procedure (parent ++ c.facts.name) inJson c
      fun f hf => h f (by simp [Column.walkAll, hf]))
    intro one
    apply hR.bind (IsSimulation.enrichColumns hR procedure parent inJson cs
      fun f hf => h f (by simp [Column.walkAll, hf]))
    intro rest
    exact hR.pure _

end

theorem IsSimulation.enrichSets
    (hR : IsSimulation R) (procedure : String) (sets : List ResultSet)
    (h : ∀ s ∈ sets, ∀ f ∈ Column.walkAll s.columns, ∀ b, f.tableBinding? = some b →
      R _ (lookup b.schema b.table) (lookup' b.schema b.table)) :
    R _ (enrichSets lookup procedure sets) (enrichSets lookup' procedure sets) := by
  induction sets with
  | nil => exact hR.pure _
  | cons s sets ih =>
    rw [Enrichment.enrichSets, Enrichment.enrichSets]
    apply hR.bind (hR.enrichColumns procedure "" s.returnsJson s.columns (h s List.mem_cons_self))
    intro one
    apply hR.bind (ih fun t ht => h t (List.mem_cons_of_mem _ ht))
    intro rest
    exact hR.pure _

/-- Look-ups that are related at the tables of an analysis make related enrichments. -/
theorem IsSimulation.enrich
    (hR : IsSimulation R) (a : Analysis)
    (h : ∀ b ∈ a.bindings, R _ (lookup b.schema b.table) (lookup' b.schema b.table)) :
    R _ (a.enrich lookup) (a.enrich lookup') := by
  apply hR.bind
  · apply hR.enrichSets
    intro s hs f hf b hb
    apply h
    exact List.mem_flatMap.mpr ⟨s, hs, List.mem_filterMap.mpr ⟨f, hf, hb⟩⟩
  · intro sets
    exact hR.pure _

theorem isSimulation_eq : IsSimulation (m := Id) (n := Id) fun _ x y => x = y where
  pure := fun _ => rfl
  bind := by
    intro α β x y f g hxy hfg
    rw [hxy]
    exact hfg _

end Enrichment

namespace Analysis

variable {columns? columns?' : String → String → Option (List TableColumn)} {a : Analysis}

/-- Enrichment reads the tables to which columns are bound, and no others. -/
theorem enriched_congr
    (h : ∀ b ∈ a.bindings, columns? b.schema b.table = columns?' b.schema b.table) :
    a.enriched columns? = a.enriched columns?' := by
  have heq : a.enrich (m := Id) (fun schema table => columns? schema table) =
      a.enrich (m := Id) (fun schema table => columns?' schema table) :=
    Enrichment.isSimulation_eq.enrich a h
  rw [enriched, enriched, heq]

@[simp]
theorem descriptor_enriched : (a.enriched columns?).descriptor = a.descriptor := rfl

@[simp]
theorem lastModified_enriched : (a.enriched columns?).lastModified = a.lastModified := rfl

@[simp]
theorem dependencies_enriched : (a.enriched columns?).dependencies = a.dependencies := rfl

end Analysis

end SqlSnapshot
