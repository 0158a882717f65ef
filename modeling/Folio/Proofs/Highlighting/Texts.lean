import Folio.Proofs.Fragment.Printing
import Folio.Proofs.Highlighting.Frame

/-!
# Highlighted texts

A highlighter that does nothing but put tags around pieces of its source changes no text: apart from the tags within
code, a highlighted tree is the tree that it was (`parse_printAll_highlight`).
-/

namespace Folio.CodeBlock

open Html

/-! ### Trees without colours -/

/-- The text of a forest. -/
def textOf (ns : List Node) : String := Node.joined (Node.textsAll ns)

mutual

/-- A tree whose code holds its text and nothing else. -/
def uncoloured : Node → Node
  | .root cs => .root (uncolouredAll cs)
  | .element t p cs =>
    .element t p (if t = "code" then [.text (textOf cs)] else uncolouredAll cs)
  | .text s => .text s

def uncolouredAll : List Node → List Node
  | [] => []
  | n :: ns => uncoloured n :: uncolouredAll ns

end

theorem textOf_cons (n : Node) (ns : List Node) : textOf (n :: ns) = n.textContent ++ textOf ns :=
  Node.joined_append _ _

theorem textOf_text (s : String) : textOf [.text s] = s := String.empty_append

mutual

theorem textContent_uncoloured : (n : Node) → (uncoloured n).textContent = n.textContent
  | .root cs => textOf_uncolouredAll cs
  | .element t p cs => by
    rw [uncoloured]
    split
    · exact textOf_text _
    · exact textOf_uncolouredAll cs
  | .text _ => rfl

theorem textOf_uncolouredAll : (ns : List Node) → textOf (uncolouredAll ns) = textOf ns
  | [] => rfl
  | n :: ns => by rw [uncolouredAll, textOf_cons, textOf_cons, textContent_uncoloured n, textOf_uncolouredAll ns]

end

theorem textOf_congr {ns ms : List Node} (h : uncolouredAll ns = uncolouredAll ms) : textOf ns = textOf ms := by
  rw [← textOf_uncolouredAll ns, h, textOf_uncolouredAll ms]

theorem uncoloured_element_congr (t : String) (p : Properties) {ns ms : List Node}
    (h : uncolouredAll ns = uncolouredAll ms) : uncoloured (.element t p ns) = uncoloured (.element t p ms) := by
  rw [uncoloured, uncoloured, h, textOf_congr h]

/-! ### Answers -/

/-- A highlighter that does nothing but put tags around pieces of the source. -/
def OnlyTags (h : Highlighter) : Prop :=
  ∀ before c html, h before c = .markup html →
    ∃ ns, Fragment.AreMarkup ns ∧ html = String.ofList (Fragment.printAll ns) ∧ textOf ns = c.source

variable {a : Adapter} {document : String}

theorem textOf_markup? (h : OnlyTags a.highlighter) {before : List HighlightCall} {c : HighlightCall}
    {content : List Node} (markup : (exchange a before c).markup? = some content) : textOf content = c.source := by
  obtain ⟨html, answer, rfl⟩ := exists_html_of_markup? markup
  obtain ⟨ns, printable, rfl, text⟩ := h _ _ _ answer
  rw [Fragment.parse_ofList_printAll printable, text]

theorem source_of_call? {cs : List Node} {c : HighlightCall} {code : Element} (call : call? cs = some c)
    (first : firstCode? cs = some code) : c.source = code.textContent := by
  unfold call? at call
  rw [first] at call
  obtain ⟨_, ⟨⟩, named⟩ := Option.bind_eq_some_iff.1 call
  obtain ⟨language, -, made⟩ := Option.bind_eq_some_iff.1 named
  exact congrArg HighlightCall.source (Option.some.inj made).symm

/-- Content that takes the place of other content has its text. -/
def Fits (swap : Option (List Node)) (ns : List Node) : Prop :=
  ∀ content ∈ swap, ∀ code ∈ firstCode? ns, textOf content = code.textContent

theorem fits_none (ns : List Node) : Fits none ns := fun content h => absurd h (Option.not_mem_none content)

theorem fits_markup? (h : OnlyTags a.highlighter) (before : List HighlightCall) {t : String} {cs : List Node}
    {c : HighlightCall} (call : blockCall? t cs = some c) : Fits (exchange a before c).markup? cs := by
  intro content markup code first
  rw [textOf_markup? h markup, source_of_call? (Option.ite_none_right_eq_some.1 call).2 first]

theorem Fits.behind {swap : Option (List Node)} {n : Node} {ns : List Node} (h : Fits swap (n :: ns)) :
    Fits (swapBehind n swap) ns := by
  by_cases code : isCode n
  · rw [swapBehind_of_isCode code]
    exact fits_none ns
  · rw [swapBehind_of_not_isCode code]
    intro content hc first hfirst
    exact h content hc first ((firstCode?_cons_of_not code ns).trans hfirst)

/-! ### The walk -/

variable {swap swap' : Option (List Node)} {s s' : Progress} {t : String} {ns cs cs' : List Node} {w : Walk}

/-- What is walked over below an element has its text, and stands for its children if it is no code. -/
theorem Enters.uncoloured_element (h : OnlyTags a.highlighter) (p : Properties)
    (enters : Enters a document swap s t cs swap' s' cs') (fits : Fits swap (.element t p cs :: ns)) :
    Fits swap' cs' ∧ ∀ ms, uncolouredAll ms = uncolouredAll cs' →
      uncoloured (.element t p ms) = uncoloured (.element t p cs) := by
  cases enters with
  | swapped content s cs =>
    refine ⟨fits_none cs', fun ms same => ?_⟩
    have text : textOf ms = textOf cs := (textOf_congr same).trans (fits cs' rfl ⟨"code", p, cs⟩ rfl)
    rw [uncoloured, if_pos rfl, uncoloured, if_pos rfl, text]
  | silent s kept call => exact ⟨fits_none cs, fun ms same => uncoloured_element_congr t p same⟩
  | asked call answered => exact ⟨fits_markup? h s.calls call, fun ms same => uncoloured_element_congr t p same⟩

/-- Apart from the tags within code a walk changes nothing. -/
theorem Ends.uncolouredAll_eq (h : OnlyTags a.highlighter) (ends : Ends a document swap s ns w) (fits : Fits swap ns) :
    uncolouredAll w.nodes = uncolouredAll ns := by
  induction ends with
  | nil swap s => rfl
  | other other rest ih =>
    have behind := fits.behind
    rw [swapBehind_of_not_isCode (not_isCode_of_other other)] at behind
    exact congrArg (uncoloured _ :: ·) (ih behind)
  | failed p ns call fails => rfl
  | stopped p ns enters inner stop ih =>
    obtain ⟨fitsBelow, same⟩ := enters.uncoloured_element h p fits
    exact congrArg (· :: uncolouredAll ns) (same _ (ih fitsBelow))
  | element p enters inner goesOn rest ih ihRest =>
    obtain ⟨fitsBelow, same⟩ := enters.uncoloured_element h p fits
    exact List.cons_eq_cons.2 ⟨same _ (ih fitsBelow), ihRest fits.behind⟩

/-- Nothing is changed but the content of code, and of that only the tags. -/
theorem uncoloured_highlight (h : OnlyTags a.highlighter) {tree : Node} {done : Highlighted}
    (ended : (highlight a document tree).value? = some done) : uncoloured done.tree = uncoloured tree := by
  obtain ⟨w, ends, rfl⟩ := value?_highlight_eq_some_iff.1 ended
  have same := ends.uncolouredAll_eq h (fits_none _)
  cases tree with
  | text s => rfl
  | root cs => exact congrArg Node.root same
  | element t p cs => exact uncoloured_element_congr t p same

/-- Markup that was written is read as the forest that it was written for. So a highlighter that does nothing but put
tags around pieces of its source changes neither the text of any code nor anything else but the tags within it, whatever
highlighting comes to; it comes to an end if none of the tags is that of a block. -/
theorem parse_printAll_highlight :
    (∀ ns, Fragment.AreMarkup ns → Fragment.parse (String.ofList (Fragment.printAll ns)) = ns) ∧
      ∀ (a : Adapter) (document : String) (tree : Node), OnlyTags a.highlighter →
        (∀ done, (highlight a document tree).value? = some done →
          uncoloured done.tree = uncoloured tree ∧ done.tree.textContent = tree.textContent) ∧
        (IsBlockless a.highlighter → ∃ done, (highlight a document tree).value? = some done) := by
  refine ⟨fun ns h => Fragment.parse_ofList_printAll h, fun a document tree h => ⟨fun done ended => ?_, fun plain => ?_⟩⟩
  · have same : uncoloured done.tree = uncoloured tree := uncoloured_highlight h ended
    refine ⟨same, ?_⟩
    rw [← textContent_uncoloured, same, textContent_uncoloured]
  · obtain ⟨w, ended, -⟩ := exists_value?_highlight plain document tree
    exact ⟨_, ended⟩

/-- A highlighter for which all of its source is a word. -/
def wrapping : Highlighter := .ofFunction fun source _ =>
  if source = "" then .unsupported
  else .markup (String.ofList (Fragment.printAll
    [.element "span" (.ofList [("class", .tokens ["token", "\"word\""])]) [.text source]]))

theorem markup_of_wrapping {before : List HighlightCall} {c : HighlightCall} {html : String}
    (answer : wrapping before c = .markup html) :
    ∃ ns, Fragment.AreMarkup ns ∧ html = String.ofList (Fragment.printAll ns) ∧ textOf ns = c.source ∧
      ∀ e ∈ Node.elementsAll ns, e.tag = "span" := by
  unfold wrapping Highlighter.ofFunction at answer
  dsimp only at answer
  split at answer
  · cases answer
  · rename_i nonempty
    have token : Fragment.IsClassName "token" := .of_all (by decide) (by decide)
    have word : Fragment.IsClassName "\"word\"" := .of_all (by decide) (by decide)
    have classes : Fragment.IsClassed (.ofList [("class", .tokens ["token", "\"word\""])]) :=
      .classes (by decide) (List.forall_mem_cons.2 ⟨token, List.forall_mem_singleton.2 word⟩)
    have span : Fragment.IsTagName "span".toList := ⟨by decide, List.all_eq_true.1 (by decide), by decide⟩
    exact ⟨_, .cons_element span classes (.text_nil nonempty) .nil, (Answer.markup.inj answer).symm,
      textOf_text c.source, List.forall_mem_singleton.2 rfl⟩

theorem onlyTags_wrapping : OnlyTags wrapping := by
  intro before c html answer
  obtain ⟨ns, markup, printed, text, -⟩ := markup_of_wrapping answer
  exact ⟨ns, markup, printed, text⟩

theorem isBlockless_wrapping : IsBlockless wrapping := by
  intro before c html answer e he
  obtain ⟨ns, markup, rfl, -, spans⟩ := markup_of_wrapping answer
  rw [Fragment.parse_ofList_printAll markup] at he
  rw [spans e he]
  decide

theorem parse_printAll_highlight_entities :
    let tree : Node := .root [taggedBlock " &lt;b> \n" "html"]
    let spans : List Node := [.element "b" .empty [.text "&lt;"], .text " \n"]
    Fragment.parse "<b>&amp;lt;</b> \n" = spans ∧ OnlyTags wrapping ∧
      ∃ done, (highlight ⟨wrapping, 10⟩ "post.md" tree).value? = some done ∧
        done.tree.textContent = " &lt;b> \n" ∧ done.progress.count = 1 := by
  intro tree spans
  have b : Fragment.IsTagName "b".toList := ⟨by decide, List.all_eq_true.1 (by decide), by decide⟩
  have markup : Fragment.AreMarkup spans := .cons_element b .empty (.text_nil (by decide)) (.text_nil (by decide))
  obtain ⟨read, texts⟩ := parse_printAll_highlight
  have printed : String.ofList (Fragment.printAll spans) = "<b>&amp;lt;</b> \n" := by decide +kernel
  obtain ⟨keeps, ends⟩ := texts ⟨wrapping, 10⟩ "post.md" tree onlyTags_wrapping
  obtain ⟨done, ended⟩ := ends isBlockless_wrapping
  have count : (highlight ⟨wrapping, 10⟩ "post.md" tree).value?.map (fun done => done.progress.count) = some 1 := by
    rw [value?_highlight, Option.map_map]
    exact map_walk_of_walkTo 2 (by decide +kernel)
  refine ⟨printed ▸ read spans markup, onlyTags_wrapping, done, ended, ?_, ?_⟩
  · rw [(keeps done ended).2]
    decide +kernel
  · rw [ended] at count
    exact Option.some.inj count

end Folio.CodeBlock
