import Folio.Draft
import Folio.Proofs.Text.Words
import Folio.Rendering

/-!
# The words of a draft

Every paragraph, heading, block of code and table begins a line of the text of a document, so no word runs from one of them
into another (`length_words_behind`). The cells of a table begin none: their texts stand together, and a word that ends a
cell runs into one that begins the next. `words_estimate` counts what is lost by that.
-/

namespace Folio

namespace Markdown.Node

mutual

/-- The nodes of a tree in document order, the tree itself first. -/
def subnodes : Node → List Node
  | .leaf l p => [.leaf l p]
  | .branch kind p cs => .branch kind p cs :: subnodesAll cs

def subnodesAll : List Node → List Node
  | [] => []
  | n :: ns => subnodes n ++ subnodesAll ns

end

end Markdown.Node

namespace Draft

open Text
open Markdown.Node (subnodes subnodesAll)

/-! ### Well-formed documents -/

mutual

/-- Is a node running text, and all below it? -/
def isRunning : Markdown.Node → Bool
  | .leaf (.inlineMath _) _ => true
  | .leaf l p => Rendering.isPhrasing (.leaf l p)
  | .branch kind p cs => Rendering.isPhrasing (.branch kind p cs) && areRunning cs

def areRunning : List Markdown.Node → Bool
  | [] => true
  | n :: ns => isRunning n && areRunning ns

end

mutual

/-- Is a node a block, with running text in paragraphs, headings and the cells of tables only? Markup may stand
anywhere. -/
def isWellFormed : Markdown.Node → Bool
  | .leaf (.html _) _ => true
  | .leaf l p => !isRunning (.leaf l p)
  | .branch .root _ cs | .branch .blockquote _ cs | .branch (.list ..) _ cs | .branch (.listItem ..) _ cs
  | .branch (.footnoteDefinition ..) _ cs => areWellFormed cs
  | .branch .paragraph _ cs | .branch (.heading _) _ cs => areRunning cs
  | .branch (.table _) _ rows => areTextRows rows
  | _ => false

def areWellFormed : List Markdown.Node → Bool
  | [] => true
  | n :: ns => isWellFormed n && areWellFormed ns

/-- Are these rows of cells of running text? -/
def areTextRows : List Markdown.Node → Bool
  | [] => true
  | .branch .tableRow _ cells :: rows => areTextCells cells && areTextRows rows
  | _ :: _ => false

/-- Are these cells of running text? -/
def areTextCells : List Markdown.Node → Bool
  | [] => true
  | .branch .tableCell _ cs :: cells => areRunning cs && areTextCells cells
  | _ :: _ => false

end

/-! ### Blocks with words -/

/-- Is a node a paragraph, a heading, a block of code or a cell? -/
def hasWords : Markdown.Node → Bool
  | .leaf (.code ..) _ => true
  | .branch .paragraph _ _ | .branch (.heading _) _ _ | .branch .tableCell _ _ => true
  | _ => false

def isTable : Markdown.Node → Bool
  | .branch (.table _) _ _ => true
  | _ => false

/-- The text of a node, as characters. -/
def chars (n : Markdown.Node) : List Char := (plainText n).toList

def wordCount (n : Markdown.Node) : Nat := (words (chars n)).length

/-- The texts of the cells of a table, but for empty ones. -/
def cellTexts (table : Markdown.Node) : List (List Char) :=
  ((table.subnodes.filter hasWords).map chars).filter (· ≠ [])

/-- The words of all blocks below some nodes. -/
def blockWords (ns : List Markdown.Node) : Nat := ((ns.filter hasWords).map wordCount).sum

/-- The joints in all tables below some nodes. -/
def tableJoints (ns : List Markdown.Node) : Nat := ((ns.filter isTable).map fun t => joints (cellTexts t)).sum

section

variable (ns ms : List Markdown.Node)

theorem blockWords_append : blockWords (ns ++ ms) = blockWords ns + blockWords ms := by simp [blockWords]

theorem tableJoints_append : tableJoints (ns ++ ms) = tableJoints ns + tableJoints ms := by simp [tableJoints]

end

theorem collectText_nil (n : Markdown.Node) : collectText [] n = (chars n).reverse := by
  rw [chars, plainText, String.toList_ofList, List.reverse_reverse]

theorem wordCount_eq (n : Markdown.Node) : wordCount n = (words (collectText [] n).reverse).length := by
  rw [collectText_nil, List.reverse_reverse, wordCount]

/-! ### Running text -/

/-- Is the text of a node added as it is? -/
def Appends (n : Markdown.Node) : Prop := ∀ done, collectText done n = (chars n).reverse ++ done

theorem breakBefore_of_isRunning {n : Markdown.Node} (h : isRunning n = true) (done : List Char) :
    breakBefore n done = done := by
  have block : isBlock n = false := by
    match n, h with
    | .leaf l p, h => cases l <;> first | rfl | cases h
    | .branch kind p cs, h => cases kind <;> first | rfl | cases h
  rw [breakBefore, block, Bool.false_and]
  rfl

mutual

/-- Running text is added as it is. -/
theorem collectText_of_isRunning {n : Markdown.Node} (h : isRunning n = true) (done : List Char) :
    collectText done n = collectText [] n ++ done := by
  match n, h with
  | .leaf l p, _ => rw [collectText, collectText, List.append_nil]
  | .branch kind p cs, h => exact collectTextAll_of_areRunning (Bool.and_eq_true_iff.1 h).2 done

theorem collectTextAll_of_areRunning {ns : List Markdown.Node} (h : areRunning ns = true) (done : List Char) :
    collectTextAll done ns = collectTextAll [] ns ++ done := by
  match ns, h with
  | [], _ => rfl
  | n :: ns, h =>
    obtain ⟨hn, hns⟩ := Bool.and_eq_true_iff.1 h
    rw [collectTextAll, collectTextAll, breakBefore_of_isRunning hn, breakBefore_of_isRunning hn,
      collectTextAll_of_areRunning hns, collectText_of_isRunning hn done,
      collectTextAll_of_areRunning hns (collectText [] n), List.append_assoc]

end

theorem appends_of_areRunning {cs : List Markdown.Node} (h : areRunning cs = true) (kind : Markdown.Branch)
    (p : Option Markdown.Position) : Appends (.branch kind p cs) := by
  intro done
  rw [← collectText_nil]
  exact collectTextAll_of_areRunning h done

mutual

/-- There are no blocks in running text. -/
theorem subnodes_of_isRunning {n : Markdown.Node} (h : isRunning n = true) :
    ∀ m ∈ n.subnodes, hasWords m = false ∧ isTable m = false := by
  match n, h with
  | .leaf l p, h =>
    intro m hm
    obtain rfl := List.mem_singleton.1 hm
    cases l <;> first | exact ⟨rfl, rfl⟩ | cases h
  | .branch kind p cs, h =>
    obtain ⟨phrasing, hcs⟩ := Bool.and_eq_true_iff.1 h
    refine List.forall_mem_cons.2 ⟨?_, subnodesAll_of_areRunning hcs⟩
    cases kind <;> first | exact ⟨rfl, rfl⟩ | cases phrasing

theorem subnodesAll_of_areRunning {ns : List Markdown.Node} (h : areRunning ns = true) :
    ∀ m ∈ subnodesAll ns, hasWords m = false ∧ isTable m = false := by
  match ns, h with
  | [], _ => exact List.forall_mem_nil _
  | n :: ns, h =>
    obtain ⟨hn, hns⟩ := Bool.and_eq_true_iff.1 h
    exact List.forall_mem_append.2 ⟨subnodes_of_isRunning hn, subnodesAll_of_areRunning hns⟩

end

section

variable {ns : List Markdown.Node} (h : ∀ m ∈ ns, hasWords m = false ∧ isTable m = false)
include h

theorem filter_hasWords_eq_nil : ns.filter hasWords = [] := List.filter_eq_nil_iff.2 fun m hm => by simp [(h m hm).1]

theorem blockWords_eq_zero : blockWords ns = 0 := by rw [blockWords, filter_hasWords_eq_nil h]; rfl

theorem tableJoints_eq_zero : tableJoints ns = 0 := by
  rw [tableJoints, List.filter_eq_nil_iff.2 fun m hm => by simp [(h m hm).2]]
  rfl

end

/-! ### Tables -/

theorem areTextCells_cons {cell : Markdown.Node} {cells : List Markdown.Node} (h : areTextCells (cell :: cells) = true) :
    areTextCells cells = true ∧ ∃ p cs, cell = .branch .tableCell p cs ∧ areRunning cs = true := by
  unfold areTextCells at h
  split at h
  · next heq => cases heq
  · next p cs rest heq =>
    obtain ⟨rfl, rfl⟩ := List.cons.inj heq
    obtain ⟨hcs, hcells⟩ := Bool.and_eq_true_iff.1 h
    exact ⟨hcells, p, cs, rfl, hcs⟩
  · cases h

theorem areTextRows_cons {row : Markdown.Node} {rows : List Markdown.Node} (h : areTextRows (row :: rows) = true) :
    areTextRows rows = true ∧ ∃ p cells, row = .branch .tableRow p cells ∧ areTextCells cells = true := by
  unfold areTextRows at h
  split at h
  · next heq => cases heq
  · next p cells rest heq =>
    obtain ⟨rfl, rfl⟩ := List.cons.inj heq
    obtain ⟨hcells, hrows⟩ := Bool.and_eq_true_iff.1 h
    exact ⟨hrows, p, cells, rfl, hcells⟩
  · cases h

/-- The texts of the cells of a row stand together. -/
theorem collectTextAll_of_areTextCells {cells : List Markdown.Node} (h : areTextCells cells = true) (done : List Char) :
    (collectTextAll done cells).reverse =
      done.reverse ++ (((subnodesAll cells).filter hasWords).map chars).flatten := by
  induction cells generalizing done with
  | nil => simp [collectTextAll, subnodesAll]
  | cons cell cells ih =>
    obtain ⟨hcells, p, cs, rfl, hcs⟩ := areTextCells_cons h
    have own : (subnodes (.branch .tableCell p cs)).filter hasWords = [.branch .tableCell p cs] := by
      rw [subnodes, List.filter_cons_of_pos rfl, filter_hasWords_eq_nil (subnodesAll_of_areRunning hcs)]
    have stays : breakBefore (.branch .tableCell p cs) done = done := rfl
    rw [collectTextAll, stays, ih hcells, appends_of_areRunning hcs, subnodesAll, List.filter_append, own]
    simp

/-- So do those of a table: neither a row nor a cell begins a line. -/
theorem collectTextAll_of_areTextRows {rows : List Markdown.Node} (h : areTextRows rows = true) (done : List Char) :
    (collectTextAll done rows).reverse =
      done.reverse ++ (((subnodesAll rows).filter hasWords).map chars).flatten := by
  induction rows generalizing done with
  | nil => simp [collectTextAll, subnodesAll]
  | cons row rows ih =>
    obtain ⟨hrows, p, cells, rfl, hcells⟩ := areTextRows_cons h
    have text : (collectText done (.branch .tableRow p cells)).reverse = _ := collectTextAll_of_areTextCells hcells done
    have stays : breakBefore (.branch .tableRow p cells) done = done := rfl
    have own : (subnodes (.branch .tableRow p cells)).filter hasWords = (subnodesAll cells).filter hasWords :=
      List.filter_cons_of_neg (by simp [hasWords])
    rw [collectTextAll, stays, ih hrows, text, subnodesAll, List.filter_append, own]
    simp

theorem isTable_of_areTextCells {cells : List Markdown.Node} (h : areTextCells cells = true) :
    ∀ m ∈ subnodesAll cells, isTable m = false := by
  induction cells with
  | nil => exact List.forall_mem_nil _
  | cons cell cells ih =>
    obtain ⟨hcells, p, cs, rfl, hcs⟩ := areTextCells_cons h
    refine List.forall_mem_append.2 ⟨List.forall_mem_cons.2 ⟨rfl, ?_⟩, ih hcells⟩
    exact fun m hm => (subnodesAll_of_areRunning hcs m hm).2

/-- There is no table within a table. -/
theorem isTable_of_areTextRows {rows : List Markdown.Node} (h : areTextRows rows = true) :
    ∀ m ∈ subnodesAll rows, isTable m = false := by
  induction rows with
  | nil => exact List.forall_mem_nil _
  | cons row rows ih =>
    obtain ⟨hrows, p, cells, rfl, hcells⟩ := areTextRows_cons h
    exact List.forall_mem_append.2 ⟨List.forall_mem_cons.2 ⟨rfl, isTable_of_areTextCells hcells⟩, ih hrows⟩

/-! ### Blocks -/

/-- A line break in front of a block keeps its words apart from those before it. -/
theorem length_words_behind {n : Markdown.Node} (h : isBlock n = true) (done text : List Char) :
    (words (text.reverse ++ breakBefore n done).reverse).length = (words done.reverse).length + (words text).length := by
  have feed : isBlank '\n' = true := by decide
  rw [List.reverse_append, List.reverse_reverse]
  cases done with
  | nil => simp [breakBefore, words]
  | cons c done =>
    by_cases hc : c = '\n'
    · subst hc
      have stays : breakBefore n ('\n' :: done) = '\n' :: done := by simp [breakBefore]
      have alone := length_words_append_blank feed done.reverse []
      rw [stays, List.reverse_cons, List.append_assoc, List.singleton_append, length_words_append_blank feed, alone]
      rfl
    · have breaks : breakBefore n (c :: done) = '\n' :: c :: done := by simp [breakBefore, h, hc]
      rw [breaks, List.reverse_cons, List.append_assoc, List.singleton_append, length_words_append_blank feed]

theorem length_words_breakBefore (n : Markdown.Node) (done : List Char) :
    (words (breakBefore n done).reverse).length = (words done.reverse).length := by
  by_cases h : isBlock n = true
  · exact length_words_behind h done []
  · have stays : breakBefore n done = done := by simp [breakBefore, h]
    rw [stays]

theorem length_words_of_appends {n : Markdown.Node} (hblock : isBlock n = true) (h : Appends n) (done : List Char) :
    (words (collectText (breakBefore n done) n).reverse).length = (words done.reverse).length + wordCount n := by
  rw [h, length_words_behind hblock]
  rfl

/-- A block of running text has one text and no tables. -/
theorem counts_of_areRunning (kind : Markdown.Branch) (p : Option Markdown.Position) {cs : List Markdown.Node}
    (hcs : areRunning cs = true) (hwords : hasWords (.branch kind p cs) = true)
    (htable : isTable (.branch kind p cs) = false) :
    blockWords (subnodes (.branch kind p cs)) = wordCount (.branch kind p cs) ∧
      tableJoints (subnodes (.branch kind p cs)) = 0 := by
  have below := subnodesAll_of_areRunning hcs
  rw [subnodes, ← List.singleton_append, blockWords_append, tableJoints_append, blockWords_eq_zero below,
    tableJoints_eq_zero below]
  simp [blockWords, tableJoints, hwords, htable]

theorem length_words_leaf {l : Markdown.Leaf} {p : Option Markdown.Position} (h : isWellFormed (.leaf l p) = true)
    (done : List Char) :
    (words (collectText (breakBefore (.leaf l p) done) (.leaf l p)).reverse).length + tableJoints [.leaf l p] =
      (words done.reverse).length + blockWords [.leaf l p] := by
  cases l with
  | code value lang info =>
    have appends : Appends (.leaf (.code value lang info) p) := by
      intro done
      rw [← collectText_nil, collectText, collectText, List.append_nil]
    have own : hasWords (.leaf (.code value lang info) p) = true := rfl
    rw [length_words_of_appends rfl appends]
    simp [tableJoints, blockWords, isTable, own]
  | text | inlineCode | inlineMath | hardBreak | image | imageReference | footnoteReference => cases h
  | _ => simp [breakBefore, isBlock, collectText, leafText, tableJoints, blockWords, isTable, hasWords]

/-- A table has the words of its cells, less one for each joint. -/
theorem length_words_table {align : List (Option Markdown.Align)} {p : Option Markdown.Position}
    {rows : List Markdown.Node} (h : areTextRows rows = true) (done : List Char) :
    (words (collectText (breakBefore (.branch (.table align) p rows) done) (.branch (.table align) p rows)).reverse).length +
        tableJoints (subnodes (.branch (.table align) p rows)) =
      (words done.reverse).length + blockWords (subnodes (.branch (.table align) p rows)) := by
  have cells : (subnodes (.branch (.table align) p rows)).filter hasWords = (subnodesAll rows).filter hasWords :=
    List.filter_cons_of_neg (by simp [hasWords])
  have text : chars (.branch (.table align) p rows) = (((subnodesAll rows).filter hasWords).map chars).flatten := by
    rw [← List.reverse_reverse (chars _), ← collectText_nil]
    exact collectTextAll_of_areTextRows h []
  have appends : Appends (.branch (.table align) p rows) := by
    intro done
    rw [← List.reverse_inj, List.reverse_append, List.reverse_reverse, text]
    exact collectTextAll_of_areTextRows h done
  have inner : tableJoints (subnodesAll rows) = 0 := by
    rw [tableJoints, List.filter_eq_nil_iff.2 fun m hm => by simp [isTable_of_areTextRows h m hm]]
    rfl
  have own : tableJoints (subnodes (.branch (.table align) p rows)) = joints (cellTexts (.branch (.table align) p rows)) := by
    rw [subnodes, ← List.singleton_append, tableJoints_append, inner]
    rfl
  have sum := length_words_flatten_filter (((subnodesAll rows).filter hasWords).map chars)
  rw [← text, List.map_map] at sum
  rw [length_words_of_appends rfl appends, own, wordCount, cellTexts, blockWords, cells, Nat.add_assoc, sum]
  rfl

mutual

/-- To the words before it a well-formed node adds those of its blocks, less one for each joint in its tables. -/
theorem length_words_of_isWellFormed {n : Markdown.Node} (h : isWellFormed n = true) (done : List Char) :
    (words (collectText (breakBefore n done) n).reverse).length + tableJoints n.subnodes =
      (words done.reverse).length + blockWords n.subnodes := by
  match n, h with
  | .leaf l p, h => exact length_words_leaf h done
  | .branch kind p cs, h =>
    cases kind with
    | paragraph =>
      obtain ⟨own, apart⟩ := counts_of_areRunning .paragraph p h rfl rfl
      rw [length_words_of_appends rfl (appends_of_areRunning h _ p), own, apart, Nat.add_zero]
    | heading depth =>
      obtain ⟨own, apart⟩ := counts_of_areRunning (.heading depth) p h rfl rfl
      rw [length_words_of_appends rfl (appends_of_areRunning h _ p), own, apart, Nat.add_zero]
    | table align => exact length_words_table h done
    | root | blockquote | list | listItem | footnoteDefinition =>
      rw [← length_words_breakBefore (.branch _ p cs) done]
      exact length_words_of_areWellFormed h _
    | _ => cases h

theorem length_words_of_areWellFormed {ns : List Markdown.Node} (h : areWellFormed ns = true) (done : List Char) :
    (words (collectTextAll done ns).reverse).length + tableJoints (subnodesAll ns) =
      (words done.reverse).length + blockWords (subnodesAll ns) := by
  match ns, h with
  | [], _ => rfl
  | n :: ns, h =>
    obtain ⟨hn, hns⟩ := Bool.and_eq_true_iff.1 h
    have first := length_words_of_isWellFormed hn done
    have rest := length_words_of_areWellFormed hns (collectText (breakBefore n done) n)
    rw [collectTextAll, subnodesAll, tableJoints_append, blockWords_append]
    omega

end

theorem wordCount_of_isWellFormed {tree : Markdown.Node} (h : isWellFormed tree = true) :
    wordCount tree + tableJoints tree.subnodes = blockWords tree.subnodes := by
  have whole := length_words_of_isWellFormed h []
  have start : breakBefore tree [] = [] := by simp [breakBefore]
  rw [start] at whole
  rw [wordCount_eq, whole, List.reverse_nil, words, List.length_nil, Nat.zero_add]

theorem tableJoints_eq_zero_iff {ns : List Markdown.Node} :
    tableJoints ns = 0 ↔ ∀ t ∈ ns, isTable t = true → (cellTexts t).IsChain fun s t => joins s t = false := by
  rw [tableJoints, List.sum_eq_zero_iff_forall_eq_nat, List.forall_mem_map]
  simp only [List.mem_filter, joints_eq_zero_iff, and_imp]

/-- The words that are counted in a draft: for each place where a word runs from a cell of a table into the next one that
is not empty, one less than in all paragraphs, headings, blocks of code and cells by themselves. What is estimated already
stays. -/
theorem words_estimate {tree : Markdown.Node} (h : isWellFormed tree = true) (f : Frontmatter) :
    (∀ t, f.estimation = some t → (estimate tree f).value = f) ∧
    (f.estimation = none → ∃ t, (estimate tree f).value = { f with estimation := some t } ∧
      t.words + ((tree.subnodes.filter isTable).map fun table => joints (cellTexts table)).sum =
        ((tree.subnodes.filter hasWords).map wordCount).sum ∧
      (t.words = ((tree.subnodes.filter hasWords).map wordCount).sum ↔
        ∀ table ∈ tree.subnodes, isTable table = true →
          (cellTexts table).IsChain fun s t => joins s t = false)) := by
  have count := wordCount_of_isWellFormed h
  constructor
  · intro t ht
    rw [estimate, ht]
    rfl
  · intro hf
    refine ⟨ReadingTime.estimate (plainText tree), ?_, count, ?_⟩
    · rw [estimate, hf]
      rfl
    · rw [← tableJoints_eq_zero_iff]
      have same : (ReadingTime.estimate (plainText tree)).words = wordCount tree := rfl
      rw [same]
      unfold blockWords at count
      omega

/-- A post without a reading time. -/
def newPost : Frontmatter := ⟨"T", ⟨2024, 5, 17, by decide⟩, "S", none, none⟩

/-- Words in a heading, an item, a table with an empty cell, and a quote within a footnote. -/
def mixedDraft : Markdown.Node :=
  .branch .root none [
    .branch (.heading 2) none [.leaf (.text "One") none],
    .branch (.list false none false) none [.branch (.listItem false none) none
      [.branch .paragraph none [.leaf (.text "two") none, .branch .strong none [.leaf (.inlineCode "three") none]]]],
    .branch (.table [none, none, none]) none [.branch .tableRow none
      [.branch .tableCell none [.leaf (.text "four ") none], .branch .tableCell none [],
        .branch .tableCell none [.leaf (.text "five") none]]],
    .branch (.footnoteDefinition "n" none) none [.branch .blockquote none [.leaf (.code "six\n" none none) none]]]

theorem words_estimate_mixedDraft : isWellFormed mixedDraft = true ∧ newPost.estimation = none ∧
    ∃ t, (estimate mixedDraft newPost).value = { newPost with estimation := some t } ∧ t.words = 5 := by
  have wellFormed : isWellFormed mixedDraft = true := by decide
  obtain ⟨t, filled, -, same⟩ := (words_estimate wellFormed newPost).2 rfl
  have apart : tableJoints mixedDraft.subnodes = 0 := by decide +kernel
  refine ⟨wellFormed, rfl, t, filled, (same.2 (tableJoints_eq_zero_iff.1 apart)).trans ?_⟩
  decide +kernel

/-- A table of two cells with one word each. -/
def joinedCells : Markdown.Node :=
  .branch .root none [.branch (.table [none, none]) none [.branch .tableRow none
    [.branch .tableCell none [.leaf (.text "a") none], .branch .tableCell none [.leaf (.text "b") none]]]]

/-- The words of two cells are counted as one. -/
theorem words_estimate_joinedCells : isWellFormed joinedCells = true ∧
    ((joinedCells.subnodes.filter hasWords).map wordCount).sum = 2 ∧
      (estimate joinedCells newPost).value.estimation.map (·.words) = some 1 := by
  decide +kernel

end Draft

end Folio
