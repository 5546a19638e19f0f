import DocumentQuery.Proofs.Run.Making

/-!
# Loading navigations is traced

Loading a navigation opens it, makes the targets with everything below them, and attaches them. A
navigation that was opened before is skipped, also when its targets are not attached yet because the
instance was met again below itself; all that can be said at once is that it was opened. What was opened
during a computation that succeeds is attached when it ends (`History.Closes`), and at the end of a run
there is nothing left that is only open.

The branches of a level may be started together, and then one of them may go on after another was left
waiting. The tracing does not notice: a branch is traced from whatever history is there when it goes on, and a
history that stops because a call is waited for is a history all the same.

## Main results

* `Execution.traced_fetch` — the documents of targets are those the loading is answered with
* `Execution.traced_load`, `Execution.traced_loadAll` — loadings are opened, and closed in the end
-/

namespace DocumentQuery

namespace History

/-- Whether targets are attached for everything that was opened since a moment. What was opened before it may
still be open, as it is on the way down to the present instance. -/
def Closes (h h' : History) : Prop :=
  ∀ o ∈ h'.openings, o ∈ h.openings ∨ ∃ a ∈ h'.attachments, a.owner = o.1 ∧ a.loading = o.2

theorem Closes.refl (h : History) : h.Closes h :=
  fun _ ho => Or.inl ho

theorem Closes.trans {h h₁ h₂ : History} (hc : h.Closes h₁) (hp : h₁ <+: h₂) (hc' : h₁.Closes h₂) :
    h.Closes h₂ := by
  intro o ho
  rcases hc' o ho with ho | hattached
  · refine (hc o ho).imp_right ?_
    rintro ⟨a, ha, hrest⟩
    exact ⟨a, attachments_subset hp ha, hrest⟩
  · exact Or.inr hattached

/-- A loading that is opened is closed when its targets are attached. -/
theorem Closes.attach {h h' : History} {a : Attachment}
    (hc : Closes (h ++ [.opened a.owner a.loading]) h') : h.Closes (h' ++ [.attached a]) := by
  intro o ho
  have ho : o ∈ h'.openings := by simpa [Event.opening?] using ho
  rcases hc o ho with ho | ⟨a', ha', hrest⟩
  · rw [openings_concat] at ho
    rcases List.mem_append.mp ho with ho | ho
    · exact Or.inl ho
    · rw [List.mem_singleton.mp ho]
      exact Or.inr ⟨a, by simp [Event.attachment?], rfl, rfl⟩
  · exact Or.inr ⟨a', attachments_subset (List.prefix_append _ _) ha', hrest⟩

theorem Spares.closes {h h' : History} (hs : h.Spares h') : h.Closes h' :=
  fun _ ho => Or.inl (hs.openings ▸ ho)

end History

namespace Execution

variable {x : Execution} {h : History} {α : Type}

/-- What a history says about the state of a run: it records the workspace, and the connection is to the
contents of the store. How many calls were made and whether one is waited for is not recorded. -/
structure RecordsRun (x : Execution) (h : History) (s : RunState) : Prop where
  workspace : x.Records h s.workspace
  reads : s.connection.Reads x.store

/-- What is left waiting is not recorded. -/
theorem RecordsRun.giveUp {s : RunState} (hs : x.RecordsRun h s) : x.RecordsRun h (Awaiting.giveUp s) where
  workspace := hs.workspace
  reads := ⟨hs.reads.collections, hs.reads.nativeOr⟩

theorem traced_making {c : Making α} {post : α → History → Prop} (hc : Traced x.Records c h post) :
    Traced x.RecordsRun (Run.making c) h post := by
  intro s hs
  obtain ⟨h', hp, hr, hpost⟩ := hc s.workspace hs.workspace
  exact ⟨h', hp, ⟨hr, hs.reads⟩, hpost⟩

/-- Calls leave no event. They are answered from the contents of the store or fail, and neither touches the
graph. -/
theorem traced_connected {c : Connected α} {r : Except Failure α}
    (hc : Connected.Answers x.store c r) :
    Traced x.RecordsRun (Run.connected c) h fun a h' => h = h' ∧ r = .ok a := by
  intro s hs
  obtain ⟨hreads, hresult, -⟩ := hc s.connection hs.reads
  exact ⟨h, List.prefix_rfl, ⟨hs.workspace, hreads⟩, fun a ha => ⟨rfl, hresult a ha⟩⟩

theorem traced_runOfExcept {r : Except Failure α} :
    Traced x.RecordsRun (Run.ofExcept r) h fun a h' => h = h' ∧ r = .ok a := by
  cases r with
  | error e => exact Traced.throw e _
  | ok a => exact Traced.pure ⟨rfl, rfl⟩

theorem traced_nativeOr :
    Traced x.RecordsRun Run.nativeOr h fun b h' => h = h' ∧ b = x.store.nativeOr :=
  Traced.get_bind fun _ hs => Traced.pure ⟨rfl, hs.reads.nativeOr⟩

theorem traced_graph : Traced x.RecordsRun Run.graph h fun g h' => h = h' ∧ x.Valid h ∧ g = h.graph :=
  Traced.get_bind fun _ hs => Traced.pure ⟨rfl, hs.workspace.valid, hs.workspace.graph⟩

/-- A change of the graph is an event, if it is one that the execution admits after what has happened so far. -/
theorem traced_changeGraph {e : Event} (he : x.Admits h e) :
    Traced x.RecordsRun (Run.changeGraph fun g => e.apply g) h fun _ h' => h ++ [e] = h' := by
  refine Traced.modify (List.prefix_append h [e]) (fun s hs => ⟨⟨?_, ?_, ?_⟩, hs.reads⟩) rfl
  · exact .snoc hs.workspace.valid he
  · rw [History.graph_concat, ← hs.workspace.graph]
  · exact hs.workspace.plans

theorem traced_instanceOf (hplans : x.KeepsPlans) {typeName : String} {d : Document}
    (hmet : ∀ item, d.shapeEntity x.model typeName = .ok item → x.Meets typeName item) :
    Traced x.RecordsRun (Run.instanceOf x.model typeName d) h
      fun id h' => h'.Represents x.model typeName d id ∧ h.Closes h' := by
  refine Traced.bind traced_runOfExcept ?_
  rintro item _ - ⟨rfl, hitem⟩
  exact (traced_making (traced_item hplans (hmet item hitem) h)).mono
    fun id h' _ ⟨hstands, hspares⟩ => ⟨⟨item, hitem, hstands⟩, hspares.closes⟩

end Execution

/-! ## Fetching -/

namespace Execution

variable {x : Execution} {h : History}

theorem traced_fetchChildren (l : Loading) (d : Document) (subcollection : String) :
    Traced x.RecordsRun (l.fetchChildren x.settings d subcollection) h fun documents h' => h = h' ∧
      l.answerChildren x.limits x.store (Document.pathOf d.path subcollection) = .ok documents := by
  refine Traced.bind traced_nativeOr ?_
  rintro _ _ - ⟨rfl, rfl⟩
  refine Traced.bind traced_runOfExcept ?_
  rintro source _ - ⟨rfl, hsource⟩
  refine (traced_connected (source.fetch_answers _ _ _)).mono ?_
  rintro documents _ - ⟨rfl, hdocuments⟩
  exact ⟨rfl, Except.bind_eq_ok.mpr ⟨source, hsource, hdocuments⟩⟩

theorem traced_fetchPaths (paths : List String) :
    Traced x.RecordsRun (Loading.fetchPaths paths) h fun documents h' => h = h' ∧
      Loading.answerPaths x.store paths = .ok documents := by
  induction paths with
  | nil => exact Traced.pure ⟨rfl, rfl⟩
  | cons path paths ih =>
    refine Traced.bind (traced_connected (Connected.getByPath_answers path)) ?_
    rintro found _ - ⟨rfl, hfound⟩
    refine Traced.map ih ?_
    rintro documents _ - ⟨rfl, hdocuments⟩
    refine ⟨rfl, Except.bind_eq_ok.mpr ⟨found, hfound, ?_⟩⟩
    exact Except.bind_eq_ok.mpr ⟨documents, hdocuments, rfl⟩

/-- The documents of targets are those the loading is answered with. -/
theorem traced_fetch (l : Loading) (d : Document) :
    Traced x.RecordsRun (l.fetch x.settings d) h fun documents h' => h = h' ∧
      l.answer x.limits x.store d = .ok documents := by
  unfold Loading.fetch Loading.answer
  cases l.navigation.storage with
  | childCollection subcollection => exact traced_fetchChildren l d subcollection
  | reference field =>
    refine Traced.map (traced_fetchPaths _) ?_
    rintro documents _ - ⟨rfl, hdocuments⟩
    exact ⟨rfl, Except.map_eq_ok.mpr ⟨documents, hdocuments, rfl⟩⟩

/-! ## Loading -/

/-- The targets of a loading are made, each with what is loaded below it. The instance of a target stands for
its document before anything below it is loaded, so that this may be assumed of it. -/
theorem traced_makeTargets (hplans : x.KeepsPlans) {typeName : String} {children : List Loading}
    {loadChildren : InstanceId → Document → Run Unit} (documents : List Document)
    (hmet : ∀ d ∈ documents, ∀ item, d.shapeEntity x.model typeName = .ok item →
      x.Meets typeName item)
    (hchildren : ∀ target, ∀ d ∈ documents, ∀ h : History, h.Represents x.model typeName d target →
      Traced x.RecordsRun (loadChildren target d) h fun _ h' =>
        (∀ l ∈ children, h'.Opened target l.label) ∧ h.Closes h')
    (h : History) :
    Traced x.RecordsRun (Loading.makeTargets x.model typeName loadChildren documents) h
      fun targets h' => List.Forall₂ (h'.Represents x.model typeName) documents targets ∧
        (∀ target ∈ targets, ∀ l ∈ children, h'.Opened target l.label) ∧ h.Closes h' := by
  induction documents generalizing h with
  | nil => exact Traced.pure ⟨.nil, fun _ ht => (by cases ht), History.Closes.refl h⟩
  | cons d documents ih =>
    refine Traced.bind (traced_instanceOf hplans (hmet d List.mem_cons_self)) ?_
    rintro target h₁ - ⟨htarget, hc⟩
    refine Traced.bind (hchildren target d List.mem_cons_self h₁ htarget) ?_
    rintro - h₂ hp₂ ⟨hopened, hc₂⟩
    refine Traced.map (ih (fun d hd => hmet d (List.mem_cons_of_mem _ hd))
      (fun target d hd => hchildren target d (List.mem_cons_of_mem _ hd)) h₂) ?_
    rintro targets h₃ hp₃ ⟨htargets, hopened₃, hc₃⟩
    refine ⟨.cons (htarget.mono (hp₂.trans hp₃)) htargets, fun other hother l hl => ?_,
      (hc.trans hp₂ hc₂).trans hp₃ hc₃⟩
    rcases List.mem_cons.mp hother with rfl | hother
    · exact (hopened l hl).mono hp₃
    · exact hopened₃ other hother l hl

/-- A navigation is loaded, given how everything below its targets is. If it was opened before nothing
happens; if not, it is opened, its targets are made, and attached in one last event. -/
theorem traced_loadWith (hplans : x.KeepsPlans) {l : Loading} {owner : InstanceId} {d : Document}
    {loadChildren : InstanceId → Document → Run Unit} (hrequested : x.Requests h l d owner)
    (hchildren : ∀ target d h, x.Reaches l.targetType l.children d →
      h.Represents x.model l.targetType d target →
      Traced x.RecordsRun (loadChildren target d) h fun _ h' =>
        (∀ c ∈ l.children, h'.Opened target c.label) ∧ h.Closes h') :
    Traced x.RecordsRun (Loading.loadWith x.model x.settings l loadChildren owner d) h
      fun _ h' => h'.Opened owner l.label ∧ h.Closes h' := by
  unfold Loading.loadWith
  refine Traced.bind traced_graph ?_
  rintro g _ - ⟨rfl, hvalid, rfl⟩
  cases hloaded : h.graph.isLoadedBy owner l.navigation.name l.label with
  | true =>
    obtain ⟨l', hl', -, hlabel⟩ := (History.isLoadedBy_iff hvalid.grounded).mp hloaded
    exact Traced.pure ⟨⟨l', hl', hlabel⟩, History.Closes.refl h⟩
  | false =>
    -- it is opened before anything is fetched, so that it is not loaded again through a cycle
    have hopen : x.Admits h (.opened owner l) := ⟨d, hrequested⟩
    refine Traced.bind (traced_changeGraph hopen) ?_
    rintro - _ hp rfl
    refine Traced.bind (traced_connected Connected.answers_checkCancelled) ?_
    rintro - _ - ⟨rfl, -⟩
    refine Traced.bind (traced_fetch l d) ?_
    rintro documents _ - ⟨rfl, hanswer⟩
    obtain ⟨typeName, loadings, hreaches, hl, hrepresents⟩ := hrequested
    have htarget : ∀ d' ∈ documents, x.Reaches l.targetType l.children d' := fun d' hd' =>
      .target hreaches hl hanswer hd'
    refine Traced.bind (traced_makeTargets hplans documents
      (fun d' hd' item hitem => .target hreaches hl hanswer hd' hitem)
      (fun target d' hd' h' => hchildren target d' h' (htarget d' hd')) _) ?_
    rintro targets (h₁ : History) hp₁ ⟨htargets, hbelow, hcloses⟩
    -- what the targets have done since then has not taken the opening back
    have hopened : (owner, l) ∈ h₁.openings :=
      History.openings_subset hp₁ (by simp [Event.opening?])
    have hattach : x.Admits h₁ (.attached ⟨owner, d, l, documents, targets⟩) :=
      ⟨⟨typeName, loadings, hreaches, hl, hrepresents.mono (hp.trans hp₁)⟩, hopened, hanswer, htargets,
        hbelow⟩
    refine (traced_changeGraph hattach).mono ?_
    rintro - _ hp₂ rfl
    exact ⟨⟨l, History.openings_subset hp₂ hopened, rfl⟩, hcloses.attach⟩

mutual

/-- A navigation is opened on an instance, and everything that is opened by loading it is closed. By recursion
on the loadings, as they are loaded. -/
theorem traced_load (hplans : x.KeepsPlans) : (l : Loading) → ∀ owner d h, x.Requests h l d owner →
    Traced x.RecordsRun (l.load x.model x.settings owner d) h fun _ h' =>
      h'.Opened owner l.label ∧ h.Closes h'
  | ⟨navigation, targetType, conditions, orderBy, limit, skip, children⟩ => by
    intro owner d h hrequested
    rw [Loading.load]
    exact traced_loadWith hplans hrequested fun target d' h' hreaches hrepresents =>
      traced_loadAll hplans children target d' h' fun l hl =>
        ⟨targetType, children, hreaches, hl, hrepresents⟩

/-- Navigations are opened on an instance, and everything that is opened by loading them is closed. -/
theorem traced_loadAll (hplans : x.KeepsPlans) : (ls : List Loading) → ∀ owner d h,
    (∀ l ∈ ls, x.Requests h l d owner) →
    Traced x.RecordsRun (Loading.loadAll x.model x.settings ls owner d) h fun _ h' =>
      (∀ l ∈ ls, h'.Opened owner l.label) ∧ h.Closes h'
  | [] => by
    intro owner d h _
    rw [Loading.loadAll]
    exact Traced.pure ⟨fun _ hl => (by cases hl), History.Closes.refl h⟩
  | l :: ls => by
    intro owner d h hrequested
    rw [Loading.loadAll]
    have hrest (h' : History) (hp : h <+: h') :=
      traced_loadAll hplans ls owner d h' fun l' hl' =>
        (hrequested l' (List.mem_cons_of_mem l hl')).mono hp
    have hall : Traced x.RecordsRun (together x.settings.execution.parallelIncludes
        (Loading.load x.model x.settings l owner d) (Loading.loadAll x.model x.settings ls owner d)) h
        fun _ h' => (∀ l' ∈ l :: ls, h'.Opened owner l'.label) ∧ h.Closes h' := by
      refine Traced.branches _ (fun _ _ hs => hs.giveUp)
        (traced_load hplans l owner d h (hrequested l List.mem_cons_self)) hrest ?_
      rintro - h₁ - ⟨hopened, hcloses⟩ - h₂ hp₂ ⟨hrest, hcloses₂⟩
      refine ⟨fun l' hl' => ?_, hcloses.trans hp₂ hcloses₂⟩
      rcases List.mem_cons.mp hl' with rfl | hl'
      · exact hopened.mono hp₂
      · exact hrest l' hl'
    exact Traced.map hall fun _ _ _ hpost => hpost

end

end Execution

end DocumentQuery
