import DocumentQuery.Proofs.Instance.PlanCache
import DocumentQuery.Proofs.Run.Events

/-!
# Making instances is traced

Making a value of a shaped value only adds births to the history, and the value is made as
`History.Made` says. Members are made before the instance they belong to, and a member may be an object
whose identity is that of its owner, so the identity is looked up once more when the members are made.

An instance without an identity belongs to one owner. This is kept by two facts about every computation
that makes a value: the instances without identity that it refers to were born by the computation itself
and nothing refers to them yet (`History.Loose`), and those that nothing referred to before are left
alone (`History.Spares`).

Nothing is assumed of the plans but that they may be kept (`Execution.KeepsPlans`), since a plan may come from
an earlier run or have been built for other members with the same key. So a field is said to be made of the
member of its name, whatever the plan, and which members become fields is a matter of the plan.

## Main results

* `Execution.traced_value` — a shaped value is made
* `Execution.traced_item` — an object is made, unless an instance stands for it already
-/

namespace DocumentQuery

/-! ## Instances without an identity -/

namespace History

variable {h h₁ h₂ : History}

/-- Whether the instances without identity among given ones were born after a moment and nothing refers to
them. They may become part of one owner. -/
def Loose (h h' : History) (ids : List InstanceId) : Prop :=
  ∀ id ∈ ids, h'.Keyless id → h.births.length ≤ id ∧ h'.Unclaimed id

/-- Whether nothing was opened since a moment and nothing refers to instances without identity that nothing
referred to at that moment. So what an owner has made of its members is not taken by a sibling. -/
structure Spares (h h' : History) : Prop where
  openings : h'.openings = h.openings
  unclaimed : ∀ id < h.births.length, h.Keyless id → h.Unclaimed id → h'.Unclaimed id

theorem Spares.refl (h : History) : h.Spares h :=
  ⟨rfl, fun _ _ _ hu => hu⟩

theorem Spares.trans (hp : h <+: h₁) (hs : h.Spares h₁) (hs' : h₁.Spares h₂) : h.Spares h₂ where
  openings := hs'.openings.trans hs.openings
  unclaimed id hid hk hu :=
    hs'.unclaimed id (Nat.lt_of_lt_of_le hid (length_births_le hp)) (hk.mono hp)
      (hs.unclaimed id hid hk hu)

theorem loose_nil : h.Loose h₁ [] :=
  fun _ hid => by cases hid

/-- What is loose stays loose when the history goes on without referring to what was there. -/
theorem Loose.mono {ids : List InstanceId} (hl : h.Loose h₁ ids) (hp : h₁ <+: h₂)
    (hs : h₁.Spares h₂) (hids : ∀ id ∈ ids, id < h₁.births.length) : h.Loose h₂ ids := by
  intro id hid hk
  have hk₁ := hk.of_lt hp (hids id hid)
  obtain ⟨hge, hu⟩ := hl id hid hk₁
  exact ⟨hge, hs.unclaimed id (hids id hid) hk₁ hu⟩

/-- What is loose since a later moment is loose since an earlier one. -/
theorem Loose.since {ids : List InstanceId} (hl : h₁.Loose h₂ ids) (hp : h <+: h₁) : h.Loose h₂ ids :=
  fun id hid hk => (hl id hid hk).imp_left (Nat.le_trans (length_births_le hp))

theorem Loose.of_subset {ids ids' : List InstanceId} (hl : h.Loose h₁ ids) (hsub : ids' ⊆ ids) :
    h.Loose h₁ ids' :=
  fun id hid => hl id (hsub hid)

/-- An instance that stands for an object with an identity has one itself. -/
theorem not_keyless {m : Model} {typeName key : String} {item : ShapedItem} {id : InstanceId}
    (hs : h.StandsFor m typeName item id) (hkey : item.identity? m typeName = some key) :
    ¬ h.Keyless id := by
  obtain ⟨b, hb, -, hbkey, -⟩ := hs
  rintro ⟨b', hb', hnone⟩
  cases hb.symm.trans hb'
  rw [hbkey, hkey] at hnone
  cases hnone

end History

namespace Execution

variable {x : Execution} {h : History}

/-- Whether plans may be kept that are built for the members of objects the execution meets. It is all that
has to be known of the cache for its plans to be such that may be kept. -/
def KeepsPlans (x : Execution) : Prop :=
  ∀ typeName item plan, x.Meets typeName item →
    InstancePlan.build x.model typeName item.names = .ok plan →
    x.plans (PlanCache.key typeName item.names) plan

theorem traced_ofExcept {α : Type} {R : History → Workspace → Prop} {r : Except Failure α}
    {post : α → History → Prop} (hpost : ∀ a, r = .ok a → post a h) :
    Traced R (Making.ofExcept r) h post := by
  cases r with
  | error e => exact Traced.throw e post
  | ok a => exact Traced.pure (hpost a rfl)

/-- A plan leaves no event, and it is one that may be kept, be it one of the cache or one that is built now. -/
theorem traced_planFor (hplans : x.KeepsPlans) {typeName : String} {item : ShapedItem}
    (hmet : x.Meets typeName item) :
    Traced x.Records (Making.planFor x.model typeName item.names) h
      fun plan h' => h = h' ∧ x.plans (PlanCache.key typeName item.names) plan := by
  refine Traced.get_bind fun w hw => ?_
  obtain ⟨hkept, hplan⟩ := PlanCache.planFor_spec hw.plans fun plan => hplans typeName item plan hmet
  have hset : Traced x.Records
      (set { w with plans := (w.plans.planFor x.model typeName item.names).2 }) h fun _ h' => h = h' :=
    Traced.set List.prefix_rfl ⟨hw.valid, hw.graph, hkept⟩ rfl
  refine hset.bind ?_
  · rintro - _ - rfl
    exact traced_ofExcept fun plan hresult => ⟨rfl, hplan plan hresult⟩

/-- A value that is made of a shaped value, as far as it can be told without knowing the objects. What it
refers to without identity is its own, and it takes nothing from others. -/
def MakesValue (x : Execution) (value : ShapedValue) : Prop :=
  ∀ h, Traced x.Records (value.materialize x.model) h fun v h' =>
    h'.Made x.model value v ∧ h.Spares h' ∧ h.Loose h' v.references

/-- What is known of fields while the members of an object are made. The history of their making is behind it,
so the owner may be born on top of what they refer to. -/
structure Fields (x : Execution) (h h' : History) (item : ShapedItem) (assigned : List String)
    (fields : Table Value) : Prop where
  ascending : fields.Ascending
  /-- There is a field for every member assigned so far that the object has. -/
  assigned : ∀ name, (fields.lookup name).isSome ↔ name ∈ assigned ∧ (item.lookup name).isSome
  /-- Each field is made of the member of its name. -/
  made : ∀ name v, fields.lookup name = some v →
    ∃ value, item.lookup name = some value ∧ h'.Made x.model value v
  /-- What a field refers to without identity belongs to nobody yet. -/
  loose : ∀ name v, fields.lookup name = some v → h.Loose h' v.references

theorem Fields.mono {h' h'' : History} {item : ShapedItem} {assigned : List String}
    {fields : Table Value} (hf : x.Fields h h' item assigned fields) (hp : h' <+: h'')
    (hs : h'.Spares h'') : x.Fields h h'' item assigned fields where
  ascending := hf.ascending
  assigned := hf.assigned
  made name v hv := by
    obtain ⟨value, hvalue, hmade⟩ := hf.made name v hv
    exact ⟨value, hvalue, hmade.mono hp⟩
  loose name v hv := by
    obtain ⟨value, hvalue, hmade⟩ := hf.made name v hv
    exact (hf.loose name v hv).mono hp hs fun id hid => hmade.lt hid

/-- A member that was made becomes a field. -/
theorem Fields.insert {h' : History} {item : ShapedItem} {assigned : List String}
    {fields : Table Value} (hf : x.Fields h h' item assigned fields) {name : String}
    {value : ShapedValue} {v : Value} (hvalue : item.lookup name = some value)
    (hmade : h'.Made x.model value v) (hloose : h.Loose h' v.references) :
    x.Fields h h' item (assigned ++ [name]) (fields.insert name v) := by
  refine ⟨hf.ascending.insert name v, fun other => ?_, fun other v' hv' => ?_, fun other v' hv' => ?_⟩
  · rw [Table.lookup_insert]
    split
    next he => simp [he, hvalue]
    next hne => simp [hf.assigned, hne]
  · rw [Table.lookup_insert] at hv'
    split at hv'
    next he =>
      cases hv'
      exact ⟨value, he ▸ hvalue, hmade⟩
    next => exact hf.made other v' hv'
  · rw [Table.lookup_insert] at hv'
    split at hv'
    next =>
      cases hv'
      exact hloose
    next => exact hf.loose other v' hv'

/-- A member that is missing becomes no field. -/
theorem Fields.skip {h' : History} {item : ShapedItem} {assigned : List String}
    {fields : Table Value} (hf : x.Fields h h' item assigned fields) {name : String}
    (hnone : item.lookup name = none) : x.Fields h h' item (assigned ++ [name]) fields := by
  refine ⟨hf.ascending, fun other => ?_, hf.made, hf.loose⟩
  rw [hf.assigned, List.mem_append, List.mem_singleton]
  constructor
  · rintro ⟨hmem, hsome⟩
    exact ⟨Or.inl hmem, hsome⟩
  · rintro ⟨hmem | rfl, hsome⟩
    · exact ⟨hmem, hsome⟩
    · rw [hnone] at hsome
      cases hsome

theorem lookup_members (m : Model) (item : ShapedItem) (name : String) :
    (ShapedItem.members m item).lookup name = (item.lookup name).map (·.materialize m) := by
  induction item with
  | nil => rfl
  | cons member item ih =>
    obtain ⟨other, value⟩ := member
    simp only [ShapedItem.members, List.lookup_cons]
    split
    · rfl
    · exact ih

theorem names_members (m : Model) (item : ShapedItem) :
    Table.names (ShapedItem.members m item) = item.names := by
  induction item with
  | nil => rfl
  | cons member item ih =>
    obtain ⟨other, value⟩ := member
    simp only [ShapedItem.members, Table.names, List.map_cons] at ih ⊢
    rw [ih]

/-- The members that a plan assigns are made one after the other, and what was made of one is left alone by
the next. By induction on the names that are left. -/
theorem traced_assignFields {h₀ : History} {typeName : String} {item : ShapedItem}
    (hvalues : ∀ name value, item.lookup name = some value → x.MakesValue value) (rest : List String)
    {assigned : List String} {fields : Table Value} (hf : x.Fields h₀ h item assigned fields)
    (hp₀ : h₀ <+: h) :
    Traced x.Records (assignFields typeName (ShapedItem.members x.model item) fields rest) h
      fun fields' h' => x.Fields h₀ h' item (assigned ++ rest) fields' ∧ h.Spares h' := by
  induction rest generalizing h assigned fields with
  | nil =>
    rw [assignFields, List.append_nil]
    exact Traced.pure ⟨hf, History.Spares.refl h⟩
  | cons name rest ih =>
    rw [assignFields, lookup_members, List.append_cons]
    cases hvalue : item.lookup name with
    | none => exact ih (hf.skip hvalue) hp₀
    | some value =>
      refine Traced.bind (hvalues name value hvalue h).rethrow ?_
      rintro v h₁ hp₁ ⟨hmade, hspares, hloose⟩
      have hf₁ := (hf.mono hp₁ hspares).insert hvalue hmade (hloose.since hp₀)
      refine (ih hf₁ (hp₀.trans hp₁)).mono fun fields' h₂ _ hrest => ?_
      exact ⟨hrest.1, hspares.trans hp₁ hrest.2⟩

/-- The instance that is registered for an identity stands for the objects that have it, whichever object it
was made of. -/
theorem standsFor_of_find? (hv : x.Valid h) {typeName key : String} {item : ShapedItem}
    {id : InstanceId} (hkey : item.identity? x.model typeName = some key)
    (hfound : h.graph.find? typeName key = some id) : h.StandsFor x.model typeName item id := by
  obtain ⟨b, hb, htype, hbkey⟩ := (History.find?_eq_some hv.grounded).mp hfound
  refine ⟨b, hb, htype, hbkey.trans hkey.symm, fun hnone => ?_⟩
  rw [hbkey] at hnone
  cases hnone

/-- A birth that is admitted extends the history of a workspace. -/
theorem Records.born {w : Workspace} (hw : x.Records h w) {b : Birth} (hb : x.AdmitsBirth h b) :
    x.Records (h ++ [.born b]) { w with graph := w.graph.bear b.newborn } where
  valid := .snoc hw.valid hb
  graph := by
    rw [History.graph_concat, ← hw.graph]
    rfl
  plans := hw.plans

/-- What is known of an instance when it is born: it stands for its object, nothing refers to it, and it
refers to nothing that is spared. -/
theorem born_spec {h₀ : History} (hp : h₀ <+: h) (hv : x.Valid h) {b : Birth}
    (hf : x.Fields h₀ h b.item b.plan.assigned b.fields)
    (hkey : b.key = b.item.identity? x.model b.typeName) {h' : History} (hh' : h' = h ++ [.born b]) :
    h'.StandsFor x.model b.typeName b.item h.births.length ∧ h₀.Loose h' [h.births.length] ∧
      (h₀.Spares h → h₀.Spares h') := by
  subst hh'
  have hbirths : History.births (h ++ [.born b]) = h.births ++ [b] := by simp [Event.birth?]
  -- what its fields refer to was there before it
  have hrefers : ∀ id, b.Refers id → id < h.births.length ∧
      (h.Keyless id → h₀.births.length ≤ id) := by
    rintro id ⟨name, v, hv, hid⟩
    obtain ⟨value, -, hmade⟩ := hf.made name v hv
    exact ⟨hmade.lt hid, fun hk => (hf.loose name v hv id hid hk).1⟩
  have hopenings : History.openings (h ++ [.born b]) = h.openings := by simp [Event.opening?]
  refine ⟨⟨b, by simp [hbirths], rfl, hkey, fun _ => rfl⟩, ?_,
    fun hs => ⟨hopenings.trans hs.openings, fun id hid hk hu => ?_⟩⟩
  · intro id hid _
    rw [List.mem_singleton.mp hid]
    refine ⟨History.length_births_le hp, fun b' hb' hr => ?_⟩
    rw [hbirths] at hb'
    rcases List.mem_append.mp hb' with hb' | hb'
    · exact Nat.lt_irrefl _ (History.lt_of_refers hv.grounded hb' hr)
    · rw [List.mem_singleton.mp hb'] at hr
      exact Nat.lt_irrefl _ (hrefers _ hr).1
  · intro b' hb' hr
    rw [hbirths] at hb'
    rcases List.mem_append.mp hb' with hb' | hb'
    · exact hs.unclaimed id hid hk hu b' hb' hr
    · rw [List.mem_singleton.mp hb'] at hr
      exact Nat.not_lt.mpr ((hrefers id hr).2 (hk.mono hp)) hid

/-- An identity that is not registered is new. -/
theorem new_of_find?_eq_none (hv : x.Valid h) {b : Birth} {key : String} (hkey : b.key = some key)
    (hnone : h.graph.find? b.typeName key = none) :
    ∀ other ∈ h.births, other.typeName = b.typeName → other.key = b.key → b.key = none := by
  intro other hother htype hsame
  obtain ⟨id, hid⟩ := List.getElem?_of_mem hother
  have hfound := (History.find?_eq_some hv.grounded).mpr ⟨other, hid, htype, hsame.trans hkey⟩
  rw [hnone] at hfound
  cases hfound

/-- An instance is added for a new birth, unless its identity was taken while its members were made. Then the
instance that took it is the result, and the fields that were made are dropped. -/
theorem traced_addInstance {h₀ : History} (hp : h₀ <+: h) {b : Birth} (hmet : x.Meets b.typeName b.item)
    (hkey : b.key = b.item.identity? x.model b.typeName)
    (hplan : x.plans (PlanCache.key b.typeName b.item.names) b.plan)
    (hf : x.Fields h₀ h b.item b.plan.assigned b.fields) :
    Traced x.Records (Making.addInstance b.newborn) h fun id h' =>
      h'.StandsFor x.model b.typeName b.item id ∧ h₀.Loose h' [id] ∧
        (h₀.Spares h → h₀.Spares h') := by
  unfold Making.addInstance
  refine Traced.get_bind fun w hw => ?_
  have hsize : (w.graph.add b.newborn).1 = h.births.length := by
    rw [← History.size_instances, ← hw.graph]
    rfl
  have hadmits (hnew : ∀ other ∈ h.births, other.typeName = b.typeName → other.key = b.key →
      b.key = none) : x.AdmitsBirth h b :=
    ⟨hmet, hkey, hplan, hnew, hf.ascending, hf.assigned, hf.made, fun id hid hk => by
      obtain ⟨name, v, hv, hid⟩ := hid
      exact (hf.loose name v hv id hid hk).2⟩
  have hspec := born_spec hp hw.valid hf hkey rfl
  have hadded (hnew : ∀ other ∈ h.births, other.typeName = b.typeName → other.key = b.key →
      b.key = none) : Traced x.Records
      (do set { w with graph := w.graph.bear b.newborn }; return (w.graph.add b.newborn).1) h
      fun id h' => h'.StandsFor x.model b.typeName b.item id ∧ h₀.Loose h' [id] ∧
        (h₀.Spares h → h₀.Spares h') := by
    have hset : Traced x.Records (set { w with graph := w.graph.bear b.newborn }) h
        fun _ h' => h ++ [.born b] = h' :=
      Traced.set (List.prefix_append h [.born b]) (hw.born (hadmits hnew)) rfl
    refine hset.bind ?_
    rintro - _ - rfl
    exact Traced.pure (hsize ▸ hspec)
  -- an instance without an identity is always new
  cases hbkey : b.key with
  | none =>
    have hbear : w.graph.bear b.newborn = (w.graph.add b.newborn).2 := by
      simp [Graph.bear, Birth.newborn, hbkey]
    rw [hbear] at hadded
    simpa [Birth.newborn, hbkey] using hadded fun _ _ _ _ => hbkey
  | some key =>
    simp only [Birth.newborn, hbkey]
    cases hfound : w.graph.find? b.typeName key with
    | some existing =>
      -- the identity was taken in the meantime, by an object inside the members
      have hstands := standsFor_of_find? hw.valid (hkey ▸ hbkey) (hw.graph ▸ hfound)
      refine Traced.pure ⟨hstands, fun id hid hk => ?_, id⟩
      rw [List.mem_singleton.mp hid] at hk
      exact absurd hk (History.not_keyless hstands (hkey ▸ hbkey))
    | none =>
      have hnew := new_of_find?_eq_none hw.valid hbkey (hw.graph ▸ hfound)
      have hbear : w.graph.bear b.newborn =
          ((w.graph.add b.newborn).2.register b.typeName key (w.graph.add b.newborn).1).2 := by
        simp [Graph.bear, Birth.newborn, hbkey, Graph.add]
      rw [hbear] at hadded
      simpa [Birth.newborn, hbkey] using hadded hnew

/-- An object is made of its members, unless an instance stands for it already. The identity map is asked
before the members are made and after, and either answer stands for the object. -/
theorem traced_assemble (hplans : x.KeepsPlans) {typeName : String} {item : ShapedItem}
    (hmet : x.Meets typeName item)
    (hvalues : ∀ name value, item.lookup name = some value → x.MakesValue value) (h : History) :
    Traced x.Records
      (assemble x.model typeName (item.identity? x.model typeName) (ShapedItem.members x.model item)) h
      fun id h' => h'.StandsFor x.model typeName item id ∧ h.Spares h' ∧ h.Loose h' [id] := by
  unfold assemble
  refine Traced.get_bind fun w hw => ?_
  cases hfound : (item.identity? x.model typeName).bind (w.graph.find? typeName) with
  | some existing =>
    obtain ⟨key, hkey, hfound⟩ := Option.bind_eq_some_iff.mp hfound
    have hstands := standsFor_of_find? hw.valid hkey (hw.graph ▸ hfound)
    refine Traced.pure ⟨hstands, History.Spares.refl h, fun id hid hk => ?_⟩
    rw [List.mem_singleton.mp hid] at hk
    exact absurd hk (History.not_keyless hstands hkey)
  | none =>
    rw [names_members]
    refine Traced.bind (traced_planFor hplans hmet) ?_
    rintro plan _ - ⟨rfl, hplan⟩
    have hempty : x.Fields h h item [] [] :=
      ⟨List.Pairwise.nil, fun name => by simp, fun name v hv => (by cases hv), fun name v hv => by cases hv⟩
    refine Traced.bind (traced_assignFields hvalues plan.assigned hempty List.prefix_rfl) ?_
    rintro fields h₁ hp₁ ⟨hf, hspares⟩
    exact (traced_addInstance (b := ⟨typeName, item.identity? x.model typeName, item, plan, fields⟩)
      hp₁ hmet rfl hplan hf).mono fun id h₂ _ ⟨hstands, hloose, hs⟩ => ⟨hstands, hs hspares, hloose⟩

/-! ## Values -/

/-- The objects of a list are made one after the other. -/
theorem traced_assembleAll (hplans : x.KeepsPlans) {typeName : String} (items : List ShapedItem)
    (hmet : ∀ item ∈ items, x.Meets typeName item)
    (hvalues : ∀ item ∈ items, ∀ name value, item.lookup name = some value → x.MakesValue value)
    (h : History) :
    Traced x.Records (assembleAll x.model typeName (ShapedItem.withMembers x.model items)) h
      fun vs h' => ∃ ids, vs = ids.map Value.object ∧
        List.Forall₂ (h'.StandsFor x.model typeName) items ids ∧ h'.Apart ids ∧ h.Spares h' ∧
        h.Loose h' ids := by
  induction items generalizing h with
  | nil =>
    exact Traced.pure ⟨[], rfl, .nil, List.Pairwise.nil, History.Spares.refl h, History.loose_nil⟩
  | cons item items ih =>
    rw [ShapedItem.withMembers, assembleAll]
    refine Traced.bind (traced_assemble hplans (hmet item List.mem_cons_self)
      (hvalues item List.mem_cons_self) h) ?_
    rintro id (h₁ : History) hp₁ ⟨hstands, hspares, hloose⟩
    refine Traced.map (ih (fun item hi => hmet item (List.mem_cons_of_mem _ hi))
      (fun item hi => hvalues item (List.mem_cons_of_mem _ hi)) h₁) ?_
    rintro vs h₂ hp₂ ⟨ids, rfl, hstand, hapart, hspares', hloose'⟩
    have hlt : ∀ id' ∈ [id], id' < h₁.births.length := by
      simpa using hstands.lt
    refine ⟨id :: ids, rfl, .cons (hstands.mono hp₂) hstand, ?_, hspares.trans hp₁ hspares', ?_⟩
    -- an instance without an identity is made anew, so it is none of the earlier ones
    · refine List.pairwise_cons.mpr ⟨fun id' hid' he hk => ?_, hapart⟩
      subst he
      exact Nat.not_lt.mpr (hloose' id hid' hk).1 hstands.lt
    · intro id' hid' hk
      rcases List.mem_cons.mp hid' with rfl | hid'
      · exact hloose.mono hp₂ hspares' hlt id' List.mem_cons_self hk
      · exact hloose'.since hp₁ id' hid' hk

/-- A value without references is made when no event is. -/
theorem madeValue_of_references_eq_nil {value : ShapedValue} {v : Value}
    (hmade : h.Made x.model value v) (hnil : v.references = []) :
    h.Made x.model value v ∧ h.Spares h ∧ h.Loose h v.references :=
  ⟨hmade, History.Spares.refl h, hnil ▸ History.loose_nil⟩

mutual

/-- A shaped value is made. By recursion on the value, with members and lists alongside. -/
theorem traced_value (hplans : x.KeepsPlans) :
    (value : ShapedValue) → (∀ o ∈ value.objects, x.Meets o.1 o.2) → x.MakesValue value
  | ⟨declared, raw, content⟩, hmet => traced_content hplans content declared raw hmet

/-- A content is made a value of. -/
theorem traced_content (hplans : x.KeepsPlans) : (content : ShapedContent) →
    ∀ declared raw, (∀ o ∈ (ShapedValue.mk declared raw content).objects, x.Meets o.1 o.2) →
      x.MakesValue ⟨declared, raw, content⟩
  | .scalar, .scalar type, raw, _ => fun h => by
    rw [ShapedValue.materialize, ShapedContent.materialize]
    refine traced_ofExcept fun v hv => ?_
    exact madeValue_of_references_eq_nil (.scalar hv) (ScalarType.references_convert hv)
  | .scalar, .complex _, _, _ | .scalar, .entity _, _, _ | .scalar, .collection _ _, _, _ => fun h =>
    Traced.throw _ _
  | .absent role, declared, raw, _ => fun h => by
    rw [ShapedValue.materialize, ShapedContent.materialize]
    exact Traced.pure (madeValue_of_references_eq_nil .absent Value.references_null)
  | .scalars items, declared, raw, _ => fun h => by
    rw [ShapedValue.materialize, ShapedContent.materialize]
    refine traced_ofExcept fun v hv => ?_
    exact madeValue_of_references_eq_nil (.scalars hv) (references_convertAll hv)
  | .object role item, declared, raw, hmet => fun h => by
    rw [ShapedValue.materialize, ShapedContent.materialize]
    cases htype : declared.objectType with
    | error e => exact Traced.throw e _
    | ok typeName =>
      have hitem : x.Meets typeName item := hmet (typeName, item) (by simp [ShapedValue.objects, htype])
      -- what is inside is made first, so its instances are in the history before the one it is for
      have hmembers := traced_members hplans item fun member hm o ho => .embedded hitem hm ho
      refine Traced.map (traced_assemble hplans hitem
        (fun name value hv => hmembers _ (mem_of_lookup hv)) h) ?_
      rintro id h' - ⟨hstands, hspares, hloose⟩
      exact ⟨.object htype hstands, hspares, by rwa [Value.references_object]⟩
  | .objects items, .collection kind element, raw, hmet => fun h => by
    rw [ShapedValue.materialize, ShapedContent.materialize, collectObjects]
    cases htype : element.objectType with
    | error e => exact Traced.throw e _
    | ok typeName =>
      have hitems : ∀ item ∈ items, x.Meets typeName item := fun item hi =>
        hmet (typeName, item) (by simpa [ShapedValue.objects, htype] using hi)
      have hmembers := traced_lists hplans items fun item hi member hm o ho =>
        .embedded (hitems item hi) hm ho
      refine Traced.map (traced_assembleAll hplans items hitems
        (fun item hi name value hv => hmembers item hi _ (mem_of_lookup hv)) h) ?_
      rintro vs h' - ⟨ids, rfl, hstand, hapart, hspares, hloose⟩
      exact ⟨.objects htype hstand hapart, hspares,
        hloose.of_subset fun id hid => Value.references_collect_objects hid⟩
  | .objects items, .scalar _, _, _ | .objects items, .complex _, _, _
  | .objects items, .entity _, _, _ => fun h => Traced.throw _ _

/-- The members of an object are made. -/
theorem traced_members (hplans : x.KeepsPlans) : (item : List (String × ShapedValue)) →
    (∀ member ∈ item, ∀ o ∈ member.2.objects, x.Meets o.1 o.2) →
    ∀ member ∈ item, x.MakesValue member.2
  | [], _ => fun _ hm => by cases hm
  | (name, value) :: rest, hmet => fun member hm => by
    rcases List.mem_cons.mp hm with rfl | hm
    · exact traced_value hplans value (hmet _ List.mem_cons_self)
    · exact traced_members hplans rest (fun m hm => hmet m (List.mem_cons_of_mem _ hm)) member hm

/-- The members of the objects of a list are made. -/
theorem traced_lists (hplans : x.KeepsPlans) : (items : List (List (String × ShapedValue))) →
    (∀ item ∈ items, ∀ member ∈ item, ∀ o ∈ member.2.objects, x.Meets o.1 o.2) →
    ∀ item ∈ items, ∀ member ∈ item, x.MakesValue member.2
  | [], _ => fun _ hi => by cases hi
  | item :: rest, hmet => fun other ho => by
    have hfirst := traced_members hplans item (hmet item List.mem_cons_self)
    rcases List.mem_cons.mp ho with he | ho
    · exact he ▸ hfirst
    · exact traced_lists hplans rest (fun i hi => hmet i (List.mem_cons_of_mem _ hi)) other ho

end

/-- An object is made, unless an instance stands for it already. What is known afterwards is the same in both
cases, except that only a new instance is loose. -/
theorem traced_item (hplans : x.KeepsPlans) {typeName : String} {item : ShapedItem}
    (hmet : x.Meets typeName item) (h : History) :
    Traced x.Records (ShapedItem.materialize x.model typeName item) h
      fun id h' => h'.StandsFor x.model typeName item id ∧ h.Spares h' :=
  (traced_assemble hplans hmet (fun _ value hv =>
    traced_value hplans value fun _ ho => .embedded hmet (mem_of_lookup hv) ho) h).mono
      fun _ _ _ hpost => ⟨hpost.1, hpost.2.1⟩

end Execution

end DocumentQuery
