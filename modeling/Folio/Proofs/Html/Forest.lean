import Folio.Html.Node

/-!
# Forests

Texts and elements of forests that are put together. Many steps put nodes into new elements; whatever is collected from
a tree no matter which elements it stands in (`SeesThrough`) is the same before and after.
-/

namespace Folio.Html.Node

theorem textsAll_eq_flatMap (ns : List Node) : textsAll ns = ns.flatMap texts := by
  induction ns with
  | nil => rfl
  | cons n ns ih => rw [textsAll, List.flatMap_cons, ih]

/-- A list of something about nodes in which an element counts as what it holds. -/
def SeesThrough {α : Type} (f : Node → List α) : Prop := ∀ t p cs, f (.element t p cs) = cs.flatMap f

theorem seesThrough_texts : SeesThrough texts := fun _ _ cs => textsAll_eq_flatMap cs

theorem elementsAll_append (ns ms : List Node) : elementsAll (ns ++ ms) = elementsAll ns ++ elementsAll ms := by
  induction ns with
  | nil => rfl
  | cons n ns ih => simp only [List.cons_append, elementsAll, ih, List.append_assoc]

/-- Texts put together have the characters of each in order. -/
theorem toList_joined (ss : List String) : (joined ss).toList = ss.flatMap String.toList := by
  have from_acc (acc : String) : (ss.foldl (· ++ ·) acc).toList = acc.toList ++ ss.flatMap String.toList := by
    induction ss generalizing acc with
    | nil => simp
    | cons s ss ih => rw [List.foldl_cons, ih, String.toList_append, List.flatMap_cons, List.append_assoc]
  exact from_acc ""

theorem joined_append (ss ts : List String) : joined (ss ++ ts) = joined ss ++ joined ts := by
  rw [String.ext_iff, String.toList_append, toList_joined, toList_joined, toList_joined, List.flatMap_append]

end Folio.Html.Node
