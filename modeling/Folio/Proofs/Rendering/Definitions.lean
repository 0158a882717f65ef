import Folio.Proofs.Footnote.Page

/-!
# The definitions of a document

A rendering knows the definitions that stand outside of footnotes: `lookup_definitions_start` says that it finds the
first of these in document order, whether it stands before or behind what refers to it.
-/

namespace Folio.Rendering

/-- The folded identifier and the target that a leaf defines. -/
def definitionOf? : Markdown.Leaf → Option (String × Definition)
  | .definition url title identifier _ => some (foldCase identifier, ⟨url, title⟩)
  | _ => none

mutual

/-- The leaves of a tree that stand outside of footnotes. -/
def outerLeaves : Markdown.Node → List Markdown.Leaf
  | .leaf l _ => [l]
  | .branch (.footnoteDefinition ..) _ _ => []
  | .branch _ _ children => allOuterLeaves children

/-- The leaves of trees that stand outside of footnotes. -/
def allOuterLeaves : List Markdown.Node → List Markdown.Leaf
  | [] => []
  | n :: ns => outerLeaves n ++ allOuterLeaves ns

end

/-- The first definition of an identifier in a document, at any depth. -/
def definition? (body : List Markdown.Node) (identifier : String) : Option Definition :=
  ((Markdown.Node.leavesAll body).filterMap definitionOf?).lookup (foldCase identifier)

/-- The first definition of an identifier outside of footnotes. -/
def outerDefinition? (body : List Markdown.Node) (identifier : String) : Option Definition :=
  ((allOuterLeaves body).filterMap definitionOf?).lookup (foldCase identifier)

mutual

theorem outerLeaves_sublist (n : Markdown.Node) : (outerLeaves n).Sublist n.leaves := by
  match n with
  | .leaf l p => exact .refl _
  | .branch kind p children =>
    cases kind with
    | footnoteDefinition identifier label => exact List.nil_sublist _
    | _ => exact allOuterLeaves_sublist children

theorem allOuterLeaves_sublist (ns : List Markdown.Node) :
    (allOuterLeaves ns).Sublist (Markdown.Node.leavesAll ns) := by
  match ns with
  | [] => exact .refl _
  | n :: ns => exact (outerLeaves_sublist n).append (allOuterLeaves_sublist ns)

end

theorem isSome_definition?_of_outer {body : List Markdown.Node} {identifier : String}
    (h : (outerDefinition? body identifier).isSome) : (definition? body identifier).isSome := by
  unfold outerDefinition? at h
  unfold definition?
  rw [List.lookup_isSome_iff] at h ⊢
  obtain ⟨d, hd, same⟩ := h
  exact ⟨d, ((allOuterLeaves_sublist body).filterMap _).subset hd, same⟩

/-! ### Collecting -/

mutual

theorem definitions_collect (c : Context) (n : Markdown.Node) :
    (collect c n).definitions = insertAll c.definitions ((outerLeaves n).filterMap definitionOf?) := by
  match n with
  | .leaf l p => cases l <;> rfl
  | .branch kind p children =>
    cases kind with
    | footnoteDefinition identifier label => rfl
    | _ => exact definitions_collectAll c children

theorem definitions_collectAll (c : Context) (ns : List Markdown.Node) :
    (collectAll c ns).definitions = insertAll c.definitions ((allOuterLeaves ns).filterMap definitionOf?) := by
  match ns with
  | [] => rfl
  | n :: ns =>
    rw [collectAll, definitions_collectAll (collect c n) ns, definitions_collect c n, allOuterLeaves,
      List.filterMap_append, insertAll_append]

end

variable {options : Options} {p : Option Markdown.Position} {body : List Markdown.Node}

/-- What a rendering finds is the first definition outside of footnotes. -/
theorem lookup_definitions_start (identifier : String) :
    (start options p body).definitions.lookup (foldCase identifier) = outerDefinition? body identifier := by
  have collected : (start options p body).definitions = insertAll [] ((allOuterLeaves body).filterMap definitionOf?) :=
    definitions_collectAll { options } body
  rw [collected, lookup_insertAll]
  rfl

end Folio.Rendering
