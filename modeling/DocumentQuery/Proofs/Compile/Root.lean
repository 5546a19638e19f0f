import DocumentQuery.Proofs.Compile.Steps
import DocumentQuery.Run.Engine

/-!
# The entity type of a compiled query

The operators of a pipeline restrict and order the entities of one type, and none of them changes which
type that is, so a compiled query is about the entity type that its pipeline starts from
(`Pipeline.entityNamed_of_compile`), and so is what it is bound to.
-/

namespace DocumentQuery

/-- A compiled query is about an entity type that the model holds, namely the one that its pipeline names. No
operator changes it, not even one that projects: the documents are those of the entity still. -/
theorem Pipeline.entityNamed_of_compile {m : Model} {pipeline : Pipeline} {t : Template}
    (h : pipeline.compile m = .ok t) :
    ∃ root, m.entityNamed pipeline.root = .ok root ∧ t.entityType = root.name := by
  obtain ⟨root, collection, key, done, hroot, -, hrun, rfl⟩ := compile_spec h
  have hstep : ∀ p op p', p.stage ≠ .terminal → Progress.Step m p op p' →
      p.template.entityType = root.name → p'.template.entityType = root.name :=
    fun _ _ _ _ hstep hp => hstep.root.1.trans hp
  exact ⟨root, hroot, Progress.run_of_step hstep hrun rfl⟩

namespace Engine

/-- A compiled query that includes navigations returns the entities themselves. A projection has no instance
that a navigation could be loaded into, and the two together are refused. -/
theorem compile_spec {e : Engine} {pipeline : Pipeline} {t : Template}
    (h : e.compile pipeline = .ok t) :
    pipeline.compile e.model = .ok t ∧ (t.includes = [] ∨ t.projection = .entity) := by
  unfold compile at h
  obtain ⟨compiled, hcompiled, h⟩ := Except.bind_eq_ok.mp h
  by_cases hrefused : (!compiled.includes.isEmpty && compiled.projection != .entity) = true
  · rw [if_pos hrefused] at h
    cases h
  · rw [if_neg hrefused] at h
    cases h
    refine ⟨hcompiled, ?_⟩
    by_cases hnone : t.includes = []
    · exact Or.inl hnone
    · exact Or.inr (by simpa [hnone] using hrefused)

end Engine

end DocumentQuery
