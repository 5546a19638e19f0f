import DocumentQuery.Proofs.Instance.Scalars
import DocumentQuery.Proofs.Run.Identity
import DocumentQuery.Proofs.Run.Sending

/-!
# Rows of a projection

A projection makes one object of every document, a row, and all rows of a run are made in one workspace. If
their members are scalars, a row is made in this workspace as it would be made alone, as long as no instance
stands for its identity. The rows before it use the same plan, and the only instances are these rows. So a
row that shares its identity with no earlier row does not depend on the other documents
(`Engine.valuesOf_rows`).

Most rows have no identity at all, because the type they are made of has no key or none that the projection
sets. But a projection may name an entity type and set its key to anything it reads. Rows with the same key are
then taken for the same entity, and the later ones come out as the first of them
(`Engine.valuesOf_sharedKey`).

That the rows are of scalars is what makes a run of them simple enough to be compared with a run of one alone:
no row refers to an instance, so a row consists of its fields, and no instance but a row is ever born. The
plan is the same for all rows, because they have the same members; it is built for the first and found again
for the others.

## Main definitions

* `BoundQuery.SameRow` — documents whose rows share an identity
* `Engine.AsAlone` — rows that are made as if there were no other ones
* `Engine.Rows` — what is known of a workspace in which some rows were made
-/

namespace DocumentQuery

/-- The instance that a value stands for, if it is an object. -/
def Graph.instance? (g : Graph) (v : Value) : Option Instance :=
  v.toObject?.bind (g.instances[·]?)

theorem Graph.GrowsTo.instance? {g g' : Graph} (h : g.GrowsTo g') {v : Value} {i : Instance}
    (hi : g.instance? v = some i) : g'.instance? v = some i := by
  obtain ⟨id, hid, hi⟩ := Option.bind_eq_some_iff.mp hi
  obtain ⟨added, hadded⟩ := h.instances
  refine Option.bind_eq_some_iff.mpr ⟨id, hid, ?_⟩
  rw [← Array.getElem?_toList] at hi ⊢
  rw [← hadded, List.getElem?_append_left (List.getElem?_eq_some_iff.mp hi).1, hi]

theorem Graph.instance?_bear (g : Graph) (i : Instance) :
    (g.bear i).instance? (.object g.instances.size) = some i := by
  show (g.bear i).instances[g.instances.size]? = some i
  rw [instances_bear]
  exact Array.getElem?_push_size

namespace BoundQuery

variable {m : Model} {q : BoundQuery} {typeName : String} {members : List ProjectedMember} {d : Document}

/-- The identity of the row that a query makes of a document, if it makes one that has an identity. It depends
on the document and the projection, and not on the run. -/
def rowKey? (m : Model) (q : BoundQuery) (d : Document) : Option String :=
  match q.projection with
  | .members typeName members => (d.shapeMembers m members).toOption.bind (·.identity? m typeName)
  | _ => none

/-- Whether the rows of two documents share an identity. -/
def SameRow (m : Model) (q : BoundQuery) (d d' : Document) : Prop :=
  ∃ key, q.rowKey? m d = some key ∧ q.rowKey? m d' = some key

/-- A query that makes rows of scalars and loads nothing for them. -/
structure MakesRows (q : BoundQuery) (typeName : String) (members : List ProjectedMember) : Prop where
  /-- The result is an object of chosen members. -/
  projection : q.projection = .members typeName members
  /-- All of these are scalars. -/
  scalar : ∀ member ∈ members, ∃ type, member.declared = .scalar type
  /-- Nothing is loaded for the rows. -/
  includes : q.includes = []

theorem MakesRows.rowKey?_eq (hq : q.MakesRows typeName members) :
    q.rowKey? m d = (d.scalarItem members).identity? m typeName := by
  rw [rowKey?, hq.projection]
  dsimp only
  rw [Document.shapeMembers_of_scalar hq.scalar]
  rfl

end BoundQuery

namespace Engine

variable {e : Engine} {q : BoundQuery} {typeName : String} {members : List ProjectedMember} {d : Document}
  {v : Value} {s s' : RunState} {c : Connection} {plans : PlanCache} {earlier : List (Document × Value)}

/-- A row is made exactly if an object of scalars is. Shaping never fails for scalars, whatever is stored, so
all that can fail is to plan the object and to convert its members. -/
theorem run_valueOf_eq_ok (hq : q.MakesRows typeName members) :
    (e.valueOf q d).run s = (.ok v, s') ↔ ∃ id w',
      (ShapedItem.materialize e.model typeName (d.scalarItem members)).run s.workspace = (.ok id, w') ∧
        v = .object id ∧ s' = { s with workspace := w' } := by
  have hshape : (Run.ofExcept (q.projection.shape e.model q.entityType d)).run s =
      (.ok (d.scalarItem members), s) := by
    rw [Run.run_ofExcept, hq.projection]
    exact congrArg (·, s) (Document.shapeMembers_of_scalar hq.scalar)
  have hmake : (Run.making (q.projection.materialize e.model q.entityType (d.scalarItem members))).run s =
      (((ShapedItem.materialize e.model typeName (d.scalarItem members)).run s.workspace).1.map .object,
        { s with workspace :=
          ((ShapedItem.materialize e.model typeName (d.scalarItem members)).run s.workspace).2 }) := by
    rw [hq.projection]
    show (((ShapedItem.materialize e.model typeName (d.scalarItem members) >>= fun id =>
        pure (Value.object id)).run s.workspace).1, RunState.mk s.connection
      ((ShapedItem.materialize e.model typeName (d.scalarItem members) >>= fun id =>
        pure (Value.object id)).run s.workspace).2) = _
    rw [run_bind_state]
    rcases (ShapedItem.materialize e.model typeName (d.scalarItem members)).run s.workspace with ⟨_ | _, _⟩ <;>
      rfl
  rw [valueOf, run_bind_of_ok hshape, run_bind_state, hmake, hq.includes]
  rcases (ShapedItem.materialize e.model typeName (d.scalarItem members)).run s.workspace with ⟨f | id, w⟩
  · exact ⟨nofun, fun ⟨_, _, h, _⟩ => nomatch h⟩
  · show (Except.ok (Value.object id), _) = (Except.ok v, s') ↔ _
    constructor
    · rintro ⟨⟩
      exact ⟨id, w, rfl, rfl, rfl⟩
    · rintro ⟨_, _, ⟨⟩, rfl, rfl⟩
      rfl

/-! ## Rows one after the other -/

/-- Whether a value is an object like the one that is made of a document alone, with fields that refer to no
other object. Since there are no references, to have the same fields is to look the same. -/
def AsAlone (e : Engine) (q : BoundQuery) (c : Connection) (plans : PlanCache) (d : Document) (v : Value)
    (g : Graph) : Prop :=
  ∃ alone s₀ i, (e.valueOf q d).run (start c plans) = (.ok alone, s₀) ∧
    s₀.workspace.graph.instance? alone = some i ∧ g.instance? v = some i ∧
    ∀ field ∈ i.fields, field.2.references = []

theorem AsAlone.mono {g g' : Graph} (h : e.AsAlone q c plans d v g) (hg : g.GrowsTo g') :
    e.AsAlone q c plans d v g' := by
  obtain ⟨alone, s₀, i, hrun, halone, hv, hfields⟩ := h
  exact ⟨alone, s₀, i, hrun, halone, hg.instance? hv, hfields⟩

/-- An object that is born by the plan of the start is born by it when there is only its document: the
identity is free in an empty graph. -/
theorem asAlone_of_bornBy (hq : q.MakesRows typeName members) {plan : InstancePlan} {i : Instance} {g : Graph}
    (hborn : ShapedItem.BornBy e.model typeName (d.scalarItem members) plan i)
    (hplan : (plans.planFor e.model typeName (d.scalarItem members).names).1 = .ok plan)
    (hv : g.instance? v = some i) : e.AsAlone q c plans d v g := by
  have hempty : ((d.scalarItem members).identity? e.model typeName).bind
      ((start c plans).workspace.graph.find? typeName) = none :=
    Option.bind_eq_none_iff.mpr fun _ _ => rfl
  have hrun := (run_valueOf_eq_ok (s := start c plans) hq).mpr
    ⟨_, _, ShapedItem.run_of_bornBy hborn hplan hempty, rfl, rfl⟩
  exact ⟨_, _, i, hrun, Graph.instance?_bear _ i, hv,
    hborn.references_eq_nil (Document.flat_scalarItem hq.scalar)⟩

/-- What is known of a workspace in which some rows were made: it has the same plan for the next row as at the
start, and its identities are those of the rows, each of which stands for its own. -/
structure Rows (e : Engine) (q : BoundQuery) (typeName : String) (members : List ProjectedMember)
    (plans : PlanCache) (earlier : List (Document × Value)) (w : Workspace) : Prop where
  /-- A row would get the plan now that it would have got at the start. -/
  plan : ∀ d : Document, (w.plans.planFor e.model typeName (d.scalarItem members).names).1 =
    (plans.planFor e.model typeName (d.scalarItem members).names).1
  /-- Every identity is that of an earlier row. -/
  made : ∀ key id, w.graph.find? typeName key = some id →
    ∃ row ∈ earlier, q.rowKey? e.model row.1 = some key
  /-- Every earlier row that has an identity stands for it. -/
  found : ∀ row ∈ earlier, ∀ key, q.rowKey? e.model row.1 = some key →
    ∃ id, w.graph.find? typeName key = some id ∧ row.2 = .object id

/-- What is said of a row: without an earlier row of its identity it is made as if it were alone, and
otherwise it is this row. The two cases exclude each other and there is no third. -/
structure RowAmong (e : Engine) (q : BoundQuery) (c : Connection) (plans : PlanCache)
    (earlier : List (Document × Value)) (d : Document) (v : Value) (g : Graph) : Prop where
  alone : (∀ row ∈ earlier, ¬q.SameRow e.model row.1 d) → e.AsAlone q c plans d v g
  shared : ∀ row ∈ earlier, q.SameRow e.model row.1 d → v = row.2

theorem rows_start : e.Rows q typeName members plans [] (start c plans).workspace :=
  ⟨fun _ => rfl, nofun, nofun⟩

/-- A row whose identity is known is the row that stands for it, and nothing changes. This is where a row may
come out with the fields of another document. -/
theorem Rows.step_found (hq : q.MakesRows typeName members)
    (h : e.Rows q typeName members plans earlier s.workspace) {id : InstanceId}
    (hfound : (q.rowKey? e.model d).bind (s.workspace.graph.find? typeName) = some id)
    (hrun : (e.valueOf q d).run s = (.ok v, s')) :
    s' = s ∧ e.Rows q typeName members plans (earlier ++ [(d, v)]) s'.workspace ∧
      e.RowAmong q c plans earlier d v s'.workspace.graph := by
  obtain ⟨id', w', hmade, rfl, rfl⟩ := (run_valueOf_eq_ok hq).mp hrun
  rw [hq.rowKey?_eq] at hfound
  rw [ShapedItem.run_of_found hfound] at hmade
  cases hmade
  obtain ⟨key, hkey, hfound⟩ := Option.bind_eq_some_iff.mp hfound
  rw [← hq.rowKey?_eq] at hkey
  refine ⟨rfl, ⟨h.plan, fun key id hid => ?_, fun row hrow key' hkey' => ?_⟩, fun halone => ?_, ?_⟩
  · obtain ⟨row, hrow, hkey⟩ := h.made key id hid
    exact ⟨row, List.mem_append_left _ hrow, hkey⟩
  · rcases List.mem_append.mp hrow with hrow | hrow
    · exact h.found row hrow key' hkey'
    · cases List.mem_singleton.mp hrow
      cases hkey.symm.trans hkey'
      exact ⟨_, hfound, rfl⟩
  · obtain ⟨row, hrow, hrowKey⟩ := h.made key _ hfound
    exact absurd ⟨key, hrowKey, hkey⟩ (halone row hrow)
  · rintro row hrow ⟨key', hrowKey, hkey'⟩
    cases hkey.symm.trans hkey'
    obtain ⟨id', hid', hvalue⟩ := h.found row hrow key hrowKey
    cases hfound.symm.trans hid'
    exact hvalue.symm

/-- A row whose identity is new, or that has none, is born, and alone it would be born in the same way. -/
theorem Rows.step_new (hq : q.MakesRows typeName members)
    (h : e.Rows q typeName members plans earlier s.workspace)
    (hnew : (q.rowKey? e.model d).bind (s.workspace.graph.find? typeName) = none)
    (hrun : (e.valueOf q d).run s = (.ok v, s')) :
    s.workspace.graph.GrowsTo s'.workspace.graph ∧
      e.Rows q typeName members plans (earlier ++ [(d, v)]) s'.workspace ∧
      e.RowAmong q c plans earlier d v s'.workspace.graph := by
  -- every earlier row with an identity has registered it
  have hapart : ∀ row ∈ earlier, ¬q.SameRow e.model row.1 d := by
    rintro row hrow ⟨key, hrowKey, hsame⟩
    obtain ⟨id, hid, -⟩ := h.found row hrow key hrowKey
    exact nomatch hid.symm.trans (Option.bind_eq_none_iff.mp hnew key hsame)
  rw [hq.rowKey?_eq] at hnew
  obtain ⟨id, w', hmade, rfl, rfl⟩ := (run_valueOf_eq_ok hq).mp hrun
  obtain ⟨plan, i, hplan, hborn⟩ :=
    ShapedItem.bornBy_of_run (Document.flat_scalarItem hq.scalar) hnew hmade
  rw [ShapedItem.run_of_bornBy hborn hplan hnew] at hmade
  cases hmade
  have hfind := hborn.find?_bear hnew
  rw [← hq.rowKey?_eq] at hfind
  refine ⟨Graph.growsTo_bear (hborn.unknown hnew), ⟨fun d' => ?_, fun key id hid => ?_,
    fun row hrow key hrowKey => ?_⟩, fun _ => ?_, fun row hrow hsame => absurd hsame (hapart row hrow)⟩
  · have hagain := PlanCache.planFrom_again (r := ⟨typeName, (d.scalarItem members).names⟩) hplan
    rw [Document.names_scalarItem d' d, ← h.plan d, hplan]
    exact hagain
  -- an identity that is registered now is the new one or was registered before
  · rw [hfind] at hid
    split at hid
    next hsame => exact ⟨(d, _), List.mem_append_right _ (List.mem_singleton_self _), hsame⟩
    next =>
      obtain ⟨row, hrow, hrowKey⟩ := h.made key id hid
      exact ⟨row, List.mem_append_left _ hrow, hrowKey⟩
  · rw [hfind]
    rcases List.mem_append.mp hrow with hrow | hrow
    · rw [if_neg fun hsame => hapart row hrow ⟨key, hrowKey, hsame⟩]
      exact h.found row hrow key hrowKey
    · cases List.mem_singleton.mp hrow
      exact ⟨_, if_pos hrowKey, rfl⟩
  · exact asAlone_of_bornBy hq hborn ((h.plan d).symm.trans hplan) (Graph.instance?_bear _ i)

/-- What one more row leaves as it is, what is known of the workspace then, and what the row is. -/
theorem Rows.step (hq : q.MakesRows typeName members)
    (h : e.Rows q typeName members plans earlier s.workspace) (hrun : (e.valueOf q d).run s = (.ok v, s')) :
    s.workspace.graph.GrowsTo s'.workspace.graph ∧
      e.Rows q typeName members plans (earlier ++ [(d, v)]) s'.workspace ∧
      e.RowAmong q c plans earlier d v s'.workspace.graph := by
  cases hfound : (q.rowKey? e.model d).bind (s.workspace.graph.find? typeName) with
  | none => exact h.step_new hq hfound hrun
  | some id =>
    obtain ⟨rfl, hrows, hrow⟩ := h.step_found (c := c) hq hfound hrun
    exact ⟨.refl _, hrows, hrow⟩

/-- The rows of a run, each among those that are made before. By induction on the documents, with the rows so
far as the part that grows. -/
theorem Rows.run (hq : q.MakesRows typeName members)
    (h : e.Rows q typeName members plans earlier s.workspace) {documents : List Document}
    {values : List Value} (hrun : (e.valuesOf q documents).run s = (.ok values, s')) :
    s.workspace.graph.GrowsTo s'.workspace.graph ∧ values.length = documents.length ∧
      ∀ i d v, documents[i]? = some d → values[i]? = some v →
        e.RowAmong q c plans (earlier ++ (documents.zip values).take i) d v s'.workspace.graph := by
  induction documents generalizing earlier s values with
  | nil =>
    cases hrun
    exact ⟨.refl _, rfl, nofun⟩
  | cons first documents ih =>
    obtain ⟨v₁, s₁, hfirst, hrun⟩ := run_bind_eq_ok hrun
    obtain ⟨rest, s₂, hrest, hrun⟩ := run_bind_eq_ok hrun
    cases hrun
    obtain ⟨hgrows, hrows, hrow⟩ := h.step (c := c) hq hfirst
    obtain ⟨hgrows', hlength, hlater⟩ := ih hrows hrest
    refine ⟨hgrows.trans hgrows', congrArg Nat.succ hlength, fun i d v hd hv => ?_⟩
    cases i with
    | zero =>
      cases hd
      cases hv
      rw [List.take_zero, List.append_nil]
      exact ⟨fun halone => (hrow.alone halone).mono hgrows', hrow.shared⟩
    | succ i =>
      rw [List.zip_cons_cons, List.take_succ_cons, List.append_cons]
      exact hlater i d v hd hv

/-- A row of scalars that shares its identity with no earlier row, for instance because it has none, has the
fields and values that it has when it is made of its document alone. A row that shares its identity with an
earlier one is this row.

The two halves together describe every row of every list of documents. That the members are scalars is a
condition of the statement; that nothing is included follows from the template being compiled, since includes
beside a projection are refused. The connection and the plans kept from earlier runs are any, and alone a row
is made with the same ones. -/
theorem valuesOf_rows {pipeline : Pipeline} {template : Template} {bindings : Bindings}
    (hcompile : e.compile pipeline = .ok template) (hbind : template.bind e.model bindings = .ok q)
    (hprojection : q.projection = .members typeName members)
    (hscalar : ∀ member ∈ members, ∃ type, member.declared = .scalar type) {documents : List Document}
    {values : List Value} (hrun : (e.valuesOf q documents).run (start c plans) = (.ok values, s)) :
    values.length = documents.length ∧
      ∀ i d v, documents[i]? = some d → values[i]? = some v →
        ((∀ row ∈ (documents.zip values).take i, ¬q.SameRow e.model row.1 d) →
            e.AsAlone q c plans d v s.workspace.graph) ∧
          ∀ row ∈ (documents.zip values).take i, q.SameRow e.model row.1 d → v = row.2 := by
  have hincludes : q.includes = [] :=
    (returns_of_compile hcompile hbind c.store fun _ _ => True).resolve_right fun hentity =>
      nomatch hprojection.symm.trans hentity
  obtain ⟨-, hlength, hrows⟩ := rows_start.run (c := c) ⟨hprojection, hscalar, hincludes⟩ hrun
  refine ⟨hlength, fun i d v hd hv => ?_⟩
  obtain ⟨halone, hshared⟩ := hrows i d v hd hv
  exact ⟨halone, hshared⟩

end Engine

/-! ## Notes under their tags -/

/-- The pipeline that makes a note of every note, with its tag for an identity. -/
def Pipeline.notesByTag : Pipeline :=
  ⟨"Note", [.select ⟨"n", .construct "Note"
    [("Id", .member (.param "n") "Tag"), ("Rank", .member (.param "n") "Rank")]⟩]⟩

/-- The members of a note under its tag. -/
def Projection.noteByTag : List ProjectedMember :=
  [⟨some "Id", "tag", .scalar .string⟩, ⟨some "Rank", "rank", .scalar .int⟩]

/-- The template of `Pipeline.notesByTag`. -/
def Template.notesByTag : Template :=
  { Template.all "notes" "Note" "Id" with projection := .members "Note" Projection.noteByTag }

/-- The query for all notes under their tags. -/
def BoundQuery.notesByTag : BoundQuery :=
  { BoundQuery.notes with projection := .members "Note" Projection.noteByTag }

/-- A stored note with the tag `y`. -/
def Document.noteY (id : String) (rank : Int) : Document :=
  ⟨pathOf "notes" id, .obj [("rank", .int rank), ("tag", .str "y")]⟩

/-- The note that is made of it under its tag. -/
def Instance.noteY (rank : Int) : Instance :=
  ⟨"Note", some "y", none, [("Id", .string "y"), ("Rank", .int rank)], []⟩

namespace Engine

/-- The engine for notes with the limits of the standard settings. -/
def ofNotes : Engine := ⟨Model.notes, Settings.standard⟩

theorem makesRows_notesByTag : BoundQuery.notesByTag.MakesRows "Note" Projection.noteByTag where
  projection := rfl
  scalar := by
    intro member hmember
    rcases List.mem_pair.mp hmember with rfl | rfl <;> exact ⟨_, rfl⟩
  includes := rfl

/-- The plan for notes with an identity and a rank. -/
def rankedPlan : InstancePlan := ⟨"Note", none, [], ["Id", "Rank"], []⟩

theorem scalarItem_noteByTag (d : Document) : d.scalarItem Projection.noteByTag =
    [("Id", ⟨.scalar .string, (d.field? "tag").getD .null, .scalar⟩),
      ("Rank", ⟨.scalar .int, (d.field? "rank").getD .null, .scalar⟩)] := by
  simp only [Document.scalarItem, Projection.noteByTag, List.map_cons, List.map_nil, Table.ofList,
    List.foldl_cons, List.foldl_nil, ProjectedMember.resultName, Option.getD_some, Table.insert]
  rw [if_neg (by decide), if_neg (by decide)]

theorem planFor_ranked (d : Document) : ((PlanCache.ofCapacity 1).planFor ofNotes.model "Note"
    (d.scalarItem Projection.noteByTag).names).1 = .ok rankedPlan := by
  rw [scalarItem_noteByTag]
  rfl

theorem bornBy_noteY {rank : Int} (hrank : rank = 2 ∨ rank = 3) (id : String) :
    ShapedItem.BornBy ofNotes.model "Note" ((Document.noteY id rank).scalarItem Projection.noteByTag)
      rankedPlan (.noteY rank) := by
  rw [scalarItem_noteByTag]
  rcases hrank with rfl | rfl <;> exact ⟨_, rfl, fun _ => rfl⟩

/-- A note that is made first has its own rank. -/
theorem run_noteY {rank : Int} (hrank : rank = 2 ∨ rank = 3) (id : String) (c : Connection) : ∃ s,
    (ofNotes.valueOf .notesByTag (.noteY id rank)).run (start c (.ofCapacity 1)) = (.ok (.object 0), s) ∧
      s.workspace.graph = Graph.empty.bear (.noteY rank) :=
  ⟨_, (run_valueOf_eq_ok makesRows_notesByTag).mpr
    ⟨_, _, ShapedItem.run_of_bornBy (bornBy_noteY hrank id) (planFor_ranked _)
      (Option.bind_eq_none_iff.mpr fun _ _ => rfl), rfl, rfl⟩, rfl⟩

theorem rowKey?_noteY (id : String) (rank : Int) :
    BoundQuery.notesByTag.rowKey? ofNotes.model (.noteY id rank) = some "y" := by
  rw [makesRows_notesByTag.rowKey?_eq, scalarItem_noteByTag]
  rfl

/-- A note that is made after one with the same tag is that one. -/
theorem run_notesY (c : Connection) : ∃ s,
    (ofNotes.valuesOf .notesByTag [.noteY "b" 2, .noteY "c" 3]).run (start c (.ofCapacity 1)) =
        (.ok [.object 0, .object 0], s) ∧
      s.workspace.graph = Graph.empty.bear (.noteY 2) := by
  obtain ⟨s, hfirst, hgraph⟩ := run_noteY (.inl rfl) "b" c
  have hsecond : (ofNotes.valueOf .notesByTag (.noteY "c" 3)).run s = (.ok (.object 0), s) := by
    refine (run_valueOf_eq_ok makesRows_notesByTag).mpr ⟨0, s.workspace, ShapedItem.run_of_found ?_, rfl, rfl⟩
    rw [← makesRows_notesByTag.rowKey?_eq, rowKey?_noteY, hgraph]
    rfl
  refine ⟨s, ?_, hgraph⟩
  rw [valuesOf, run_bind_of_ok hfirst, valuesOf, run_bind_state, run_bind_of_ok hsecond]
  rfl

/-- The first of two notes with the same tag is made as if it were alone, and the second one is the first. -/
theorem valuesOf_rows_notesY : ∃ s,
    (ofNotes.valuesOf .notesByTag [.noteY "b" 2, .noteY "c" 3]).run
        (start (.ofStore (.notes true)) (.ofCapacity 1)) = (.ok [.object 0, .object 0], s) ∧
      ofNotes.AsAlone .notesByTag (.ofStore (.notes true)) (.ofCapacity 1) (.noteY "b" 2) (.object 0)
        s.workspace.graph ∧
      BoundQuery.notesByTag.SameRow ofNotes.model (.noteY "b" 2) (.noteY "c" 3) := by
  obtain ⟨s, hrun, -⟩ := run_notesY (.ofStore (.notes true))
  have hcompile : ofNotes.compile .notesByTag = .ok .notesByTag := rfl
  have hbind : Template.notesByTag.bind ofNotes.model [] = .ok .notesByTag := rfl
  have hrows := (valuesOf_rows hcompile hbind rfl makesRows_notesByTag.scalar hrun).2
  exact ⟨s, hrun, (hrows 0 _ _ rfl rfl).1 nofun, "y", rowKey?_noteY _ _, rowKey?_noteY _ _⟩

/-- The second note with a tag has the rank of the first one, although alone it has its own. The pipeline is
one that compiles, and the projection names the entity type of the notes and sets its key to the tag. -/
theorem valuesOf_sharedKey : ofNotes.compile .notesByTag = .ok .notesByTag ∧
    Template.notesByTag.bind ofNotes.model [] = .ok .notesByTag ∧
    (∃ s, (ofNotes.valuesOf .notesByTag [.noteY "b" 2, .noteY "c" 3]).run
        (start (.ofStore (.notes true)) (.ofCapacity 1)) = (.ok [.object 0, .object 0], s) ∧
      (s.workspace.graph.instance? (.object 0)).map (·.fields) =
        some [("Id", .string "y"), ("Rank", .int 2)]) ∧
    ∃ s, (ofNotes.valueOf .notesByTag (.noteY "c" 3)).run
        (start (.ofStore (.notes true)) (.ofCapacity 1)) = (.ok (.object 0), s) ∧
      (s.workspace.graph.instance? (.object 0)).map (·.fields) =
        some [("Id", .string "y"), ("Rank", .int 3)] := by
  obtain ⟨s, hrun, hgraph⟩ := run_notesY (.ofStore (.notes true))
  obtain ⟨alone, hrunAlone, hgraphAlone⟩ := run_noteY (.inr rfl) "c" (.ofStore (.notes true))
  refine ⟨rfl, rfl, ⟨s, hrun, ?_⟩, alone, hrunAlone, ?_⟩
  · rw [hgraph]
    rfl
  · rw [hgraphAlone]
    rfl

end Engine

end DocumentQuery
