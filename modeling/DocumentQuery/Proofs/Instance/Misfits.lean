import DocumentQuery.Proofs.Run.Faults

/-!
# Instances of shaped documents

Instances are made by the shape of a value and its declared type together, and there are failures for pairs
that do not belong together. None of them is ever seen for documents that were shaped. What was shaped fits,
at any depth (`ShapedValue.Shaped.of_occurs`), and a value that cannot be made is blamed on the documents
unless something in it does not fit (`Making.blames_value`). Scalars of another form than their type are
still refused, and so are objects that no constructor takes.

The two halves come from two places. That shaped values have the shape of their types is an induction along
the shaper; that a failure for a shape needs a value of another shape is one along the making of instances.
They meet in `ShapedValue.Occurs`, the values inside a value, and in nothing else.

## Main results

* `Shaper.shapes_fit` — documents are shaped in finitely many steps, to values that fit their types
-/

namespace DocumentQuery

namespace Shaper

variable {m : Model}

/-- A shaped value is never refused for its shape, in whatever workspace it is made and whatever else it may
be refused for. -/
theorem not_isMisfit_of_shaped {v : ShapedValue} (h : v.Shaped m) {w : Workspace} {e : Failure}
    (he : ((v.materialize m).run w).1 = .error e) : ¬ e.IsMisfit := by
  intro hmisfit
  obtain ⟨-, -, hblames⟩ := Making.blames_value Making.kept_true v (fun _ _ => trivial) w trivial
  obtain ⟨u, hu, hfits⟩ := (hblames e he).misfit hmisfit
  exact hfits (h.of_occurs hu).fits

/-- No result that is made of a shaped object is refused for its shape. -/
theorem not_isMisfit_of_shaped_item {item : ShapedItem} (h : item.Shaped m) {typeName : String}
    {p : Projection} {w : Workspace} {e : Failure}
    (he : ((p.materialize m typeName item).run w).1 = .error e) : ¬ e.IsMisfit := by
  intro hmisfit
  obtain ⟨-, -, hblames⟩ := Making.blames_projection m typeName item p w trivial
  obtain ⟨u, hu, hfits⟩ := (hblames e he).misfit hmisfit
  exact hfits (h.of_holds hu).fits

/-- Shaping follows the declared types, and it ends after as many steps as a document is deep, whatever the
types refer to. If it succeeds, every value in the result has the shape of its declared type, so that nothing
that is made of the result is refused for a shape.

The model is any, with types that refer to each other in circles as well; the depth of the document alone
bounds the steps. -/
theorem shapes_fit (m : Model) :
    (∀ raw, ofJson m raw = step m (ofJson m) raw) ∧
      (∀ start raw n, raw.depth < n → (step m)^[n] start raw = ofJson m raw) ∧
      (∀ raw declared v, ofJson m raw declared = .ok v → v.declared = declared ∧
        (∀ u, v.Occurs u → u.kind = u.declared.valueKind) ∧
        ∀ w e, ((v.materialize m).run w).1 = .error e → ¬ e.IsMisfit) ∧
      ∀ typeName d (p : Projection) item, p.shape m typeName d = .ok item →
        (∀ u, item.Holds u → u.kind = u.declared.valueKind) ∧
        ∀ typeName' (p' : Projection) w e,
          ((p'.materialize m typeName' item).run w).1 = .error e → ¬ e.IsMisfit := by
  refine ⟨ofJson_eq_step m, fun start raw n => iterate_step start, fun raw declared v h => ?_,
    fun typeName d p item h => ?_⟩
  · have hshaped : v.Shaped m := ⟨raw, declared, h⟩
    exact ⟨(fits_of_ofJson h).1, fun u hu => (hshaped.of_occurs hu).fits.kind,
      fun w e => not_isMisfit_of_shaped hshaped⟩
  · have hshaped : item.Shaped m := Projection.shaped_of_shape h
    exact ⟨fun u hu => (hshaped.of_holds hu).fits.kind,
      fun typeName' p' w e => not_isMisfit_of_shaped_item hshaped⟩

end Shaper

/-! ## Categories -/

/-- The type of categories, each of which is in another one and has categories as its parts. -/
def TypeDecl.category : TypeDecl :=
  ⟨"Category", .complex,
    [.named "Name" (.scalar .string), .named "Parent" (.complex "Category"),
      .named "Parts" (.collection .list (.complex "Category"))], [], []⟩

/-- The model of categories. -/
def Model.categories : Model :=
  .withType .empty .category

namespace Shaper

/-- A category inside another one, whose name is not a text. -/
def bread : Json :=
  .obj [("Name", .str "Bread"), ("Parent", .obj [("Name", .int 7)]),
    ("Parts", .arr [.obj [("Name", .str "Rye")]])]

/-- The projection to the name of the parent of a category. -/
def parentName : Projection :=
  .field ⟨none, "Parent.Name", .scalar .string⟩

/-- Categories are shaped as deep as they are stored. The name of the parent has the shape of a text and is
refused for the number it is. -/
theorem shapes_fit_bread : bread.depth < 4 ∧
    (step .categories)^[4] (fun _ _ => .error .io) bread = ofJson .categories bread ∧
    (∃ v parent, ofJson .categories bread (.complex "Category") = .ok v ∧ v.Occurs parent ∧
      parent.raw = .obj [("Name", .int 7)] ∧ parent.kind = parent.declared.valueKind) ∧
    (∃ v e, ofJson .categories (.int 7) (.scalar .string) = .ok v ∧
      ((v.materialize .categories).run default).1 = .error e ∧ ¬ e.IsMisfit) ∧
    ∃ item e, parentName.shape .categories "Category" ⟨"categories/bread", bread⟩ = .ok item ∧
      ((parentName.materialize .categories "Category" item).run default).1 = .error e ∧ ¬ e.IsMisfit := by
  obtain ⟨-, hsteps, hvalues, hdocuments⟩ := shapes_fit .categories
  have hdepth : bread.depth < 4 := by decide
  refine ⟨hdepth, hsteps _ bread 4 hdepth, ?_, ?_, ?_⟩
  · have hshape : ∃ v parent, ofJson .categories bread (.complex "Category") = .ok v ∧
        v.Occurs parent ∧ parent.raw = .obj [("Name", .int 7)] :=
      ⟨_, _, rfl, .inside List.mem_cons_self (List.mem_cons_of_mem _ List.mem_cons_self) (.self _), rfl⟩
    obtain ⟨v, parent, hv, hparent, hraw⟩ := hshape
    exact ⟨v, parent, hv, hparent, hraw, (hvalues bread _ v hv).2.1 parent hparent⟩
  · have hshape : ∃ v e, ofJson .categories (.int 7) (.scalar .string) = .ok v ∧
        ((v.materialize .categories).run default).1 = .error e := ⟨_, _, rfl, rfl⟩
    obtain ⟨v, e, hv, he⟩ := hshape
    exact ⟨v, e, hv, he, (hvalues _ _ v hv).2.2 default e he⟩
  · have hshape : ∃ item e,
        parentName.shape .categories "Category" ⟨"categories/bread", bread⟩ = .ok item ∧
        ((parentName.materialize .categories "Category" item).run default).1 = .error e :=
      ⟨_, _, rfl, rfl⟩
    obtain ⟨item, e, hitem, he⟩ := hshape
    exact ⟨item, e, hitem, he, (hdocuments "Category" _ _ item hitem).2 "Category" _ default e he⟩

end Shaper

end DocumentQuery
