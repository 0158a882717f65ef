import Folio.Draft
import Mathlib.Data.List.Basic

/-!
# What including files changes

The walk over a tree does to its leaves what one run over the list of them does, and nothing else to the tree
(`includeFiles_eq_run`). A run goes on as long as the reads succeed, so `includeFiles_changes` says which leaves get their
text, how many they are, and which failure ends the walk. A tree is known from its shape and its leaves (`eq_of_shape`).
-/

namespace Folio

namespace Markdown.Node

/-- A leaf and where it stands. -/
abbrev Placed := Leaf × Option Position

mutual

/-- The leaves of a tree in document order, each with its place. -/
def placedLeaves : Node → List Placed
  | .leaf l p => [(l, p)]
  | .branch _ _ cs => placedLeavesAll cs

def placedLeavesAll : List Node → List Placed
  | [] => []
  | n :: ns => placedLeaves n ++ placedLeavesAll ns

end

mutual

/-- A tree with other contents of its leaves. -/
def mapLeaves (f : Placed → Leaf) : Node → Node
  | .leaf l p => .leaf (f (l, p)) p
  | .branch kind p cs => .branch kind p (mapLeavesAll f cs)

def mapLeavesAll (f : Placed → Leaf) : List Node → List Node
  | [] => []
  | n :: ns => mapLeaves f n :: mapLeavesAll f ns

end

/-- A tree without the contents of its leaves. -/
def shape (n : Node) : Node := n.mapLeaves fun _ => .hardBreak

variable {f g : Placed → Leaf}

mutual

theorem placedLeaves_mapLeaves (n : Node) : (n.mapLeaves f).placedLeaves = n.placedLeaves.map fun x => (f x, x.2) := by
  match n with
  | .leaf l p => rfl
  | .branch kind p cs => exact placedLeavesAll_mapLeavesAll cs

theorem placedLeavesAll_mapLeavesAll (ns : List Node) :
    placedLeavesAll (mapLeavesAll f ns) = (placedLeavesAll ns).map fun x => (f x, x.2) := by
  match ns with
  | [] => rfl
  | n :: ns =>
    rw [mapLeavesAll, placedLeavesAll, placedLeaves_mapLeaves n, placedLeavesAll_mapLeavesAll ns, placedLeavesAll,
      List.map_append]

end

mutual

theorem mapLeaves_mapLeaves (n : Node) : (n.mapLeaves f).mapLeaves g = n.mapLeaves fun x => g (f x, x.2) := by
  match n with
  | .leaf l p => rfl
  | .branch kind p cs => exact congrArg (Node.branch kind p) (mapLeavesAll_mapLeavesAll cs)

theorem mapLeavesAll_mapLeavesAll (ns : List Node) :
    mapLeavesAll g (mapLeavesAll f ns) = mapLeavesAll (fun x => g (f x, x.2)) ns := by
  match ns with
  | [] => rfl
  | n :: ns => exact congrArg₂ List.cons (mapLeaves_mapLeaves n) (mapLeavesAll_mapLeavesAll ns)

end

theorem shape_mapLeaves (n : Node) : (n.mapLeaves f).shape = n.shape := mapLeaves_mapLeaves n

/-- Trees of one shape have as many leaves. -/
theorem length_placedLeaves_of_shape {n m : Node} (h : n.shape = m.shape) :
    n.placedLeaves.length = m.placedLeaves.length := by
  have leaves := congrArg (fun k => k.placedLeaves.length) h
  simpa only [shape, placedLeaves_mapLeaves, List.length_map] using leaves

mutual

theorem eq_of_shape {n m : Node} (h : n.shape = m.shape) (hl : n.placedLeaves = m.placedLeaves) : n = m := by
  match n, m with
  | .leaf l p, .leaf l' p' =>
    obtain ⟨rfl, rfl⟩ := Prod.mk.inj (List.singleton_inj.1 hl)
    rfl
  | .branch kind p cs, .branch kind' p' cs' =>
    obtain ⟨rfl, rfl, shapes⟩ := Node.branch.inj h
    rw [eq_of_shapes shapes hl]

theorem eq_of_shapes {ns ms : List Node}
    (h : mapLeavesAll (fun _ => .hardBreak) ns = mapLeavesAll (fun _ => .hardBreak) ms)
    (hl : placedLeavesAll ns = placedLeavesAll ms) : ns = ms := by
  match ns, ms with
  | [], [] => rfl
  | n :: ns, m :: ms =>
    obtain ⟨shape, shapes⟩ := List.cons.inj h
    obtain ⟨first, rest⟩ := List.append_inj hl (length_placedLeaves_of_shape shape)
    rw [eq_of_shape shape first, eq_of_shapes shapes rest]

end

end Markdown.Node

namespace Draft

open Markdown (Leaf Position)
open Markdown.Node (Placed placedLeaves placedLeavesAll mapLeaves shape)

variable (files : Storage) (ctx : IncludeContext)

/-! ### The run over the leaves -/

/-- What a leaf asks for: the file that the meta string of a block of code names. A failure tells the document and where
the block begins. -/
def request : Placed → Except PipelineError (Option String)
  | (.code _ _ (some metaText), p) =>
    (Include.read files metaText ctx (p.map fun q => ⟨some ctx.document, q.start.line, q.start.column⟩)).value
  | _ => .ok none

/-- A leaf with the text that it asks for, on a line of its own. -/
def filled (x : Placed) : Leaf :=
  match x.1, request files ctx x with
  | .code value lang info, .ok (some text) => .code (if value = "" then text else value ++ "\n" ++ text) lang info
  | l, _ => l

/-- Does a leaf get a text? -/
def gains (x : Placed) : Bool := (request files ctx x).toOption.join.isSome

/-- Fills leaves up to the first failure. -/
def run : List Placed → Included (List Placed)
  | [] => ⟨[], 0, none⟩
  | x :: xs =>
    match request files ctx x with
    | .error e => ⟨x :: xs, 0, some e⟩
    | .ok _ =>
      ⟨(filled files ctx x, x.2) :: (run xs).value, (if gains files ctx x then 1 else 0) + (run xs).count, (run xs).stop⟩

variable {files ctx}

theorem run_of_ok {xs : List Placed} (h : ∀ x ∈ xs, ∃ o, request files ctx x = .ok o) :
    run files ctx xs = ⟨xs.map fun x => (filled files ctx x, x.2), xs.countP (gains files ctx), none⟩ := by
  induction xs with
  | nil => rfl
  | cons x xs ih =>
    obtain ⟨⟨o, hx⟩, hxs⟩ := List.forall_mem_cons.1 h
    rw [run, hx]
    dsimp only
    rw [ih hxs, List.countP_cons, Nat.add_comm]
    rfl

/-- Behind leaves whose reads succeed the run goes on. -/
theorem run_append_of_ok {xs : List Placed} (h : ∀ x ∈ xs, ∃ o, request files ctx x = .ok o) (ys : List Placed) :
    run files ctx (xs ++ ys) = ⟨(run files ctx xs).value ++ (run files ctx ys).value,
      (run files ctx xs).count + (run files ctx ys).count, (run files ctx ys).stop⟩ := by
  induction xs with
  | nil => simp [run]
  | cons x xs ih =>
    obtain ⟨⟨o, hx⟩, hxs⟩ := List.forall_mem_cons.1 h
    rw [List.cons_append, run, run, hx]
    dsimp only
    rw [ih hxs, Nat.add_assoc]
    rfl

theorem run_of_error {before after : List Placed} {x : Placed} {e : PipelineError}
    (h : ∀ y ∈ before, ∃ o, request files ctx y = .ok o) (hx : request files ctx x = .error e) :
    run files ctx (before ++ x :: after) =
      ⟨(before.map fun x => (filled files ctx x, x.2)) ++ x :: after, before.countP (gains files ctx), some e⟩ := by
  have last : run files ctx (x :: after) = ⟨x :: after, 0, some e⟩ := by rw [run, hx]
  rw [run_append_of_ok h, run_of_ok h, last]
  rfl

/-- A list of leaves either succeeds as a whole or has a first failure. -/
theorem ok_or_error (files : Storage) (ctx : IncludeContext) (xs : List Placed) :
    (∀ x ∈ xs, ∃ o, request files ctx x = .ok o) ∨ ∃ before x after e, xs = before ++ x :: after ∧
      (∀ y ∈ before, ∃ o, request files ctx y = .ok o) ∧ request files ctx x = .error e := by
  induction xs with
  | nil => exact .inl (List.forall_mem_nil _)
  | cons x xs ih =>
    cases hx : request files ctx x with
    | error e => exact .inr ⟨[], x, xs, e, rfl, List.forall_mem_nil _, hx⟩
    | ok o =>
      rcases ih with hxs | ⟨before, y, after, e, rfl, hbefore, hy⟩
      · exact .inl (List.forall_mem_cons.2 ⟨⟨o, hx⟩, hxs⟩)
      · exact .inr ⟨x :: before, y, after, e, rfl, List.forall_mem_cons.2 ⟨⟨o, hx⟩, hbefore⟩, hy⟩

/-- A failure ends the run, whatever comes behind. -/
theorem run_append_of_stop {xs : List Placed} {e : PipelineError} (h : (run files ctx xs).stop = some e)
    (ys : List Placed) :
    run files ctx (xs ++ ys) = ⟨(run files ctx xs).value ++ ys, (run files ctx xs).count, some e⟩ := by
  rcases ok_or_error files ctx xs with hxs | ⟨before, x, after, e', rfl, hbefore, hx⟩
  · rw [run_of_ok hxs] at h
    cases h
  · rw [run_of_error hbefore hx] at h ⊢
    cases h
    rw [List.append_assoc, List.cons_append, run_of_error hbefore hx, List.append_assoc, List.cons_append]

theorem ok_of_stop {xs : List Placed} (h : (run files ctx xs).stop = none) :
    ∀ x ∈ xs, ∃ o, request files ctx x = .ok o := by
  rcases ok_or_error files ctx xs with hxs | ⟨before, x, after, e, rfl, hbefore, hx⟩
  · exact hxs
  · rw [run_of_error hbefore hx] at h
    cases h

/-! ### The walk over the tree -/

variable (files ctx)

theorem request_eq_ok_none {l : Leaf} {p : Option Position} (h : ∀ value lang metaText, l ≠ .code value lang (some metaText)) :
    request files ctx (l, p) = .ok none := by
  unfold request
  split
  · next hl => exact absurd (Prod.mk.inj hl).1 (h _ _ _)
  · rfl

theorem includeFiles_leaf (l : Leaf) (p : Option Position) :
    (includeFiles files ctx (.leaf l p)).value = match request files ctx (l, p) with
      | .error e => ⟨.leaf l p, 0, some e⟩
      | .ok _ => ⟨.leaf (filled files ctx (l, p)) p, if gains files ctx (l, p) then 1 else 0, none⟩ := by
  by_cases code : ∃ value lang metaText, l = .code value lang (some metaText)
  · obtain ⟨value, lang, metaText, rfl⟩ := code
    have asked : request files ctx (.code value lang (some metaText), p) =
        (Include.read files metaText ctx (p.map (locate ctx.document))).value := rfl
    rw [includeFiles, Logged.value_bind, asked, filled, gains, asked]
    rcases (Include.read files metaText ctx (p.map (locate ctx.document))).value with e | _ | text
    · rfl
    · rfl
    · simp [Include.append, Except.toOption]
  · have other : ∀ value lang metaText, l ≠ .code value lang (some metaText) := fun value lang metaText h =>
      code ⟨value, lang, metaText, h⟩
    have nothing := request_eq_ok_none files ctx (p := p) other
    have same : filled files ctx (l, p) = l := by
      rw [filled, nothing]
      split
      · next h => cases h
      · rfl
    rw [nothing, includeFiles.eq_2 _ _ _ _ fun value lang metaText => other value lang metaText]
    dsimp only
    rw [same, gains, nothing]
    rfl

/-- The walk does to the leaves of a tree what the run over their list does, and keeps the tree otherwise. -/
structure Follows (n : Markdown.Node) (r : Included Markdown.Node) : Prop where
  shape : r.value.shape = n.shape
  leaves : r.value.placedLeaves = (run files ctx n.placedLeaves).value
  count : r.count = (run files ctx n.placedLeaves).count
  stop : r.stop = (run files ctx n.placedLeaves).stop

mutual

theorem includeFiles_eq_run (n : Markdown.Node) : Follows files ctx n (includeFiles files ctx n).value := by
  match n with
  | .leaf l p =>
    rw [includeFiles_leaf]
    cases hx : request files ctx (l, p) with
    | error e => refine ⟨rfl, ?_, ?_, ?_⟩ <;> simp [placedLeaves, run, hx]
    | ok o => refine ⟨rfl, ?_, ?_, ?_⟩ <;> simp [placedLeaves, run, hx]
  | .branch kind p cs =>
    obtain ⟨shapes, leaves, count, stop⟩ := includeAll_eq_run cs
    exact ⟨congrArg (Markdown.Node.branch kind p) shapes, leaves, count, stop⟩

theorem includeAll_eq_run (ns : List Markdown.Node) :
    Markdown.Node.mapLeavesAll (fun _ => .hardBreak) (includeAll files ctx ns).value.value =
        Markdown.Node.mapLeavesAll (fun _ => .hardBreak) ns ∧
      placedLeavesAll (includeAll files ctx ns).value.value = (run files ctx (placedLeavesAll ns)).value ∧
      (includeAll files ctx ns).value.count = (run files ctx (placedLeavesAll ns)).count ∧
      (includeAll files ctx ns).value.stop = (run files ctx (placedLeavesAll ns)).stop := by
  match ns with
  | [] => exact ⟨rfl, rfl, rfl, rfl⟩
  | n :: ns =>
    obtain ⟨shape, leaves, count, stop⟩ := includeFiles_eq_run n
    obtain ⟨shapes', leaves', count', stop'⟩ := includeAll_eq_run ns
    rw [includeAll, Logged.value_bind, placedLeavesAll]
    cases hstop : (includeFiles files ctx n).value.stop with
    | some e =>
      rw [hstop] at stop
      rw [run_append_of_stop stop.symm]
      refine ⟨congrArg (· :: _) shape, ?_, count, rfl⟩
      exact congrArg (· ++ placedLeavesAll ns) leaves
    | none =>
      rw [hstop] at stop
      rw [run_append_of_ok (ok_of_stop stop.symm)]
      refine ⟨congrArg₂ List.cons shape shapes', ?_, congrArg₂ Nat.add count count', stop'⟩
      exact congrArg₂ (· ++ ·) leaves leaves'

end

/-- Including files keeps the shape of a tree. If all reads succeed, each leaf that asks for a file gets its text, and they
are counted. Otherwise the failure is that of the first leaf whose read fails; the leaves in front of it have got their
texts, and it and those behind it are as they were. -/
theorem includeFiles_changes (tree : Markdown.Node) :
    (includeFiles files ctx tree).value.value.shape = tree.shape ∧
    ((∀ x ∈ tree.placedLeaves, ∃ o, request files ctx x = .ok o) → (includeFiles files ctx tree).value =
      ⟨tree.mapLeaves (filled files ctx), tree.placedLeaves.countP (gains files ctx), none⟩) ∧
    ∀ before x after e, tree.placedLeaves = before ++ x :: after →
      (∀ y ∈ before, ∃ o, request files ctx y = .ok o) → request files ctx x = .error e →
      (includeFiles files ctx tree).value.stop = some e ∧ (includeFiles files ctx tree).value.value.placedLeaves =
        (before.map fun y => (filled files ctx y, y.2)) ++ x :: after := by
  have walk := includeFiles_eq_run files ctx tree
  refine ⟨walk.shape, fun h => ?_, fun before x after e split hbefore hx => ?_⟩
  · have value : (includeFiles files ctx tree).value.value = tree.mapLeaves (filled files ctx) := by
      refine Markdown.Node.eq_of_shape (walk.shape.trans (Markdown.Node.shape_mapLeaves tree).symm) ?_
      rw [walk.leaves, run_of_ok h, Markdown.Node.placedLeaves_mapLeaves]
    obtain ⟨-, -, count, stop⟩ := walk
    rw [run_of_ok h] at count stop
    exact congr (congrArg₂ Included.mk value count) stop
  · rw [walk.stop, walk.leaves, split, run_of_error hbefore hx]
    exact ⟨rfl, rfl⟩

/-- A working directory with the one file `a`. -/
def oneFile : Storage := ⟨[['w']], fun place => if place = [['w'], ['a']] then .file "fn a() {}\n" else .missing⟩

def quotedInclude : Markdown.Node := .branch .blockquote none [.leaf (.code "// a" none (some "file=a")) none]

/-- A document whose second block of code, in a footnote, asks for a file that is not there. -/
def brokenInclude : Markdown.Node :=
  .branch .root none [quotedInclude,
    .branch (.footnoteDefinition "n" none) none
      [.leaf (.code "" none (some "file=b")) (some ⟨⟨3, 1, 9⟩, ⟨4, 4, 20⟩⟩)],
    .leaf (.code "" none (some "file=a")) none]

theorem includeFiles_oneFile :
    ((includeFiles oneFile ⟨"post.md", none⟩ quotedInclude).value.stop = none ∧
      (includeFiles oneFile ⟨"post.md", none⟩ quotedInclude).value.count = 1) ∧
    (includeFiles oneFile ⟨"post.md", none⟩ brokenInclude).value.stop =
      some (.missingInclude "b" "file=b" "post.md" (some ⟨some "post.md", 3, 1⟩)) ∧
    (includeFiles oneFile ⟨"post.md", none⟩ brokenInclude).value.value.placedLeaves =
      [(.code "// a\nfn a() {}" none (some "file=a"), none),
        (.code "" none (some "file=b"), some ⟨⟨3, 1, 9⟩, ⟨4, 4, 20⟩⟩), (.code "" none (some "file=a"), none)] := by
  have found : ∀ y ∈ [((.code "// a" none (some "file=a"), none) : Placed)],
      ∃ o, request oneFile ⟨"post.md", none⟩ y = .ok o := by
    intro y hy
    obtain rfl := List.mem_singleton.1 hy
    exact ⟨some "fn a() {}", by decide +kernel⟩
  constructor
  · rw [(includeFiles_changes oneFile ⟨"post.md", none⟩ quotedInclude).2.1 found]
    exact ⟨rfl, by decide +kernel⟩
  · obtain ⟨stop, leaves⟩ := (includeFiles_changes oneFile ⟨"post.md", none⟩ brokenInclude).2.2 _
      (.code "" none (some "file=b"), some ⟨⟨3, 1, 9⟩, ⟨4, 4, 20⟩⟩) _
      (.missingInclude "b" "file=b" "post.md" (some ⟨some "post.md", 3, 1⟩)) rfl found (by decide +kernel)
    exact ⟨stop, leaves.trans (by decide +kernel)⟩

end Draft

end Folio
