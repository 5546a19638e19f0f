import DocumentQuery.Proofs.Json.Text
import DocumentQuery.Run.Loading

/-!
# Labels of loadings

An instance remembers a loading by the text of its exchange form, and a loading whose label is
remembered is skipped. Skipping is right only if nothing is lost by it: loadings with the same label
load the same navigation, and below it there are loadings with the same labels in turn
(`Loading.same_of_label`).

That the text of a document tells the document is a lemma about texts (`Json.text_inj`), and all that is left
here is to read the parts of a loading off its exchange form. Texts tell numbers only as far as they are
written alike, which is why the relation is `Json.Alike` and not equality.
-/

namespace DocumentQuery

open Json (Alike AlikeItems)

theorem CollectionKind.eq_of_alike {a b : CollectionKind} (h : Alike a.toJson b.toJson) : a = b := by
  have hname : a.name = b.name := h
  cases a <;> cases b <;> first | rfl | exact absurd hname (by decide)

theorem Multiplicity.eq_of_alike {a b : Multiplicity} (h : Alike a.toJson b.toJson) : a = b := by
  cases a with
  | singular => cases b with
    | singular => rfl
    | collection l => exact h.elim
  | collection k => cases b with
    | singular => exact h.elim
    | collection l => rw [CollectionKind.eq_of_alike h.2.1]

theorem NavigationStorage.eq_of_alike {a b : NavigationStorage} (h : Alike a.toJson b.toJson) :
    a = b := by
  cases a with
  | childCollection s => cases b with
    | childCollection t => exact congrArg _ h.2.1.2.1
    | reference g => exact absurd h.1 (by decide)
  | reference f => cases b with
    | childCollection t => exact absurd h.1 (by decide)
    | reference g => exact congrArg _ h.2.1.2.1

theorem Navigation.toJson_eq (n : Navigation) :
    n.toJson = .obj [("multiplicity", n.multiplicity.toJson), ("name", .str n.name),
      ("storage", n.storage.toJson), ("target", .str n.target)] := by
  simp only [toJson, Json.mkObj, Table.ofList, Table.insert, List.foldl_cons, List.foldl_nil,
    String.reduceEq, String.reduceLT, if_true, if_false]

theorem Navigation.eq_of_alike {a b : Navigation} (h : Alike a.toJson b.toJson) : a = b := by
  rw [toJson_eq, toJson_eq] at h
  obtain ⟨-, hmultiplicity, -, hname, -, hstorage, -, htarget, -⟩ := h
  obtain ⟨name, target, multiplicity, storage⟩ := a
  obtain ⟨name', target', multiplicity', storage'⟩ := b
  cases Multiplicity.eq_of_alike hmultiplicity
  cases NavigationStorage.eq_of_alike hstorage
  cases show name = name' from hname
  cases show target = target' from htarget
  rfl

namespace Loading

theorem toJson_eq (l : Loading) :
    l.toJson = .obj [("children", .arr (toJsonAll l.children)),
      ("filters", .arr (Condition.toJsonAll l.conditions)), ("limit", Json.ofOption Json.count l.limit),
      ("navigation", l.navigation.toJson), ("order_by", Json.ofList SortKey.toJson l.orderBy),
      ("skip", Json.ofOption Json.count l.skip), ("target_type", .str l.targetType)] := by
  obtain ⟨navigation, targetType, conditions, orderBy, limit, skip, children⟩ := l
  simp only [toJson, Json.mkObj, Table.ofList, Table.insert, List.foldl_cons, List.foldl_nil,
    String.reduceEq, String.reduceLT, if_true, if_false]

/-- Lists of loadings with texts alike have the same labels one by one. -/
theorem labels_eq_of_alike {ls ls' : List Loading} (h : AlikeItems (toJsonAll ls) (toJsonAll ls')) :
    ls.map label = ls'.map label := by
  induction ls generalizing ls' with
  | nil =>
    cases ls' with
    | nil => rfl
    | cons l' ls' => exact h.elim
  | cons l ls ih =>
    cases ls' with
    | nil => exact h.elim
    | cons l' ls' =>
      rw [List.map_cons, List.map_cons, ih h.2, label, label, h.1.text_eq]

/-- Loadings with the same label load the same navigation, and below it there are loadings with the same
labels. So skipping one of them loses nothing: the other one was opened, and what is below has been opened by
it. -/
theorem same_of_label {l l' : Loading} (h : l.label = l'.label) :
    l.navigation = l'.navigation ∧ l.targetType = l'.targetType ∧
      l.children.map label = l'.children.map label := by
  have halike := Json.text_inj h
  rw [toJson_eq, toJson_eq] at halike
  obtain ⟨-, hchildren, -, -, -, -, -, hnavigation, -, -, -, -, -, htarget, -⟩ := halike
  exact ⟨Navigation.eq_of_alike hnavigation, htarget, labels_eq_of_alike hchildren⟩

end Loading

end DocumentQuery
