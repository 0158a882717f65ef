import Folio.Proofs.Blank
import Folio.Proofs.Dialect
import Folio.Proofs.Flow
import Folio.Proofs.Frontmatter.Body
import Folio.Proofs.Frontmatter.Markup
import Folio.Proofs.Frontmatter.Steps
import Folio.Proofs.Shift.Tree

/-!
# Documents with metadata

A document with metadata is transformed like its body alone, exactly if the body begins where the reader of Markdown
goes on, and markup in the body reads alike as a whole and piece by piece (`transform_eq_run_body_iff`).
-/

namespace Folio

open Markdown Text
open Rendering (isHtml isPhrasing isMixed)

/-! ### The body -/

/-- A text without its first bytes. -/
def dropBytes : Nat → List Char → List Char
  | 0, s => s
  | _ + 1, [] => []
  | n + 1, c :: s => dropBytes (n + 1 - c.utf8Size) s

theorem dropBytes_append (a s : List Char) : dropBytes (byteSize a) (a ++ s) = s := by
  induction a with
  | nil => simp [byteSize, dropBytes]
  | cons c a ih =>
    have size : byteSize (c :: a) = (c.utf8Size + byteSize a - 1) + 1 := by
      have pos := c.utf8Size_pos
      simp only [byteSize]
      omega
    have rest : c.utf8Size + byteSize a - 1 + 1 - c.utf8Size = byteSize a := by
      have pos := c.utf8Size_pos
      omega
    rw [size, List.cons_append, dropBytes, rest, ih]

namespace Frontmatter

/-- The document without its front. -/
def Extraction.body (e : Extraction) (source : String) : String := String.ofList (dropBytes e.bodyStart source.toList)

theorem find_of_extract {source : String} {e : Extraction} (h : extract source = .ok e) (present : e.present = true) :
    ∃ b, Block.find source.toList = .found b ∧ (e.body source).toList = b.body := by
  unfold extract at h
  split at h
  · cases h
    nomatch present
  · nomatch h
  · next b found =>
    refine ⟨b, found, ?_⟩
    obtain ⟨front, split⟩ := Block.body_isSuffix found
    generalize entriesOf b.text = r at h
    cases r with
    | error err => nomatch h
    | ok entries =>
      obtain rfl := Except.ok.inj h
      have size : byteSize source.toList - byteSize b.body = byteSize front := by
        rw [← split, byteSize_append, Nat.add_sub_cancel]
      show (String.ofList (dropBytes (byteSize source.toList - byteSize b.body) source.toList)).toList = b.body
      rw [String.toList_ofList, size, ← split, dropBytes_append]

end Frontmatter

/-! ### Trees -/

namespace Markdown

theorem blockNodes_data (d : Dialect) (v : String) (q : Position) (bs : List Block) :
    blockNodes d (.leaf (.yaml v) q :: bs) = .leaf (.yaml v) (some q) :: blockNodes d bs := by
  unfold blockNodes
  cases d.gfm <;> rfl

end Markdown

namespace Pipeline

/-- The dialect of the bodies of posts. -/
def bodyDialect : Dialect := { postDialect with frontmatter := false }

/-- The nodes of a body. -/
def bodyNodes (body : List Char) : List Markdown.Node := blockNodes postDialect (blocksOf postDialect (lines body))

theorem parse_bodyDialect (source : String) :
    parse bodyDialect source =
      .branch .root (some ⟨⟨1, 1, 0⟩, endOf (lines source.toList)⟩) (bodyNodes source.toList) := by
  have blocks : documentBlocks bodyDialect (lines source.toList) = blocksOf postDialect (lines source.toList) :=
    blocksOf_frontmatter postDialect false _
  rw [parse, blocks, bodyDialect, blockNodes_frontmatter]
  rfl

/-- A block that the reader takes off is the first node, and the nodes of the body follow, further down. -/
theorem parse_of_isTaken {source : String} {body : List Char} (h : Block.IsTaken source.toList body) :
    ∃ p v q s, parse postDialect source = .branch .root p (.leaf (.yaml v) q :: (bodyNodes body).map (.shift s)) := by
  obtain ⟨v, q, es, s, taken, hes⟩ := h
  have blocks : documentBlocks postDialect (lines source.toList) =
      .leaf (.yaml v) q :: blocksOf postDialect (es ++ (lines body).map (.shift s)) := by
    rw [documentBlocks, if_pos (show postDialect.frontmatter = true from rfl), taken]
  obtain ⟨k, blank⟩ := blocksOf_empty_append postDialect hes ((lines body).map (.shift s))
  refine ⟨some ⟨⟨1, 1, 0⟩, endOf (lines source.toList)⟩, v, some q, s, ?_⟩
  rw [parse, blocks, blank, blockNodes_data, blockNodes_blank_append, blocksOf_shift, blockNodes_shift]
  rfl

/-- Without a block of data at its start a document is read as a body. -/
theorem parse_of_none {source : String} (h : takeMeta (lines source.toList) = none) :
    parse postDialect source = parse bodyDialect source := by
  have blocks : documentBlocks postDialect (lines source.toList) = blocksOf postDialect (lines source.toList) := by
    rw [documentBlocks, if_pos (show postDialect.frontmatter = true from rfl), h]
  rw [parse_bodyDialect, parse, blocks]
  rfl

/-! ### Transformations -/

theorem readFrontmatter_eq_some_iff {source : String} {f : Frontmatter} : readFrontmatter source = .ok (some f) ↔
    ∃ e, Frontmatter.extract source = .ok e ∧ e.present = true ∧ Frontmatter.ofValue (.map e.entries) = .ok f := by
  show (Frontmatter.extract source >>= fun e =>
    if e.present then some <$> Frontmatter.ofValue (.map e.entries) else .ok none) = _ ↔ _
  cases Frontmatter.extract source with
  | error err => exact ⟨nofun, nofun⟩
  | ok e =>
    show (if e.present then some <$> Frontmatter.ofValue (.map e.entries) else .ok none) = _ ↔ _
    cases present : e.present with
    | false =>
      constructor
      · nofun
      · rintro ⟨e', same, present', -⟩
        cases same
        rw [present] at present'
        nomatch present'
    | true =>
      rw [if_pos rfl]
      constructor
      · intro h
        cases hf : Frontmatter.ofValue (.map e.entries) with
        | error err =>
          rw [hf] at h
          nomatch h
        | ok f' =>
          rw [hf] at h
          cases h
          exact ⟨e, rfl, present, hf⟩
      · rintro ⟨e', same, -, hf⟩
        cases same
        rw [hf]
        rfl

theorem exists_of_accepted (source : String) (h : (readFrontmatter source).toOption.join.isSome = true) :
    ∃ f, readFrontmatter source = .ok (some f) := by
  generalize readFrontmatter source = r at h
  match r with
  | .ok (some f) => exact ⟨f, rfl⟩

/-- A body that is mixed at the top level is nothing but markup. -/
theorem isHtml_of_mem_bodyNodes {body : List Char} (h : isMixed (bodyNodes body) = true) :
    ∀ n ∈ bodyNodes body, isHtml n = true := by
  intro n hn
  have phrasing : isPhrasing n = true := by
    simp only [isMixed, Bool.and_eq_true, List.all_eq_true] at h
    exact h.2 n hn
  exact isFlow_of_mem_parse hn phrasing

variable {source : String} {e : Frontmatter.Extraction} {f : Frontmatter}

theorem transform_eq_run (he : Frontmatter.extract source = .ok e) (present : e.present = true)
    (hf : Frontmatter.ofValue (.map e.entries) = .ok f) (p : Pipeline) (files : Storage) (document : String) :
    p.transform files source document = p.run files (parse postDialect source) (some f) document := by
  rw [transform, readFrontmatter_eq_some_iff.2 ⟨e, he, present, hf⟩]

/-- If the reader of Markdown takes the block off, then the document is transformed like its body alone just if markup
reads alike as a whole and piece by piece. -/
theorem shown?_transform_iff (he : Frontmatter.extract source = .ok e) (present : e.present = true)
    (hf : Frontmatter.ofValue (.map e.entries) = .ok f) (options : Options)
    (taken : Block.IsTaken source.toList (e.body source).toList) :
    (∀ (markdown : List MarkdownPass) (html : List HtmlPass) (files : Storage) (document : String),
      ShowAlike (transform ⟨markdown, html, options, none⟩ files source document)
        (run ⟨markdown, html, options, none⟩ files (parse bodyDialect (e.body source)) (some f) document)) ↔
      Rendering.Seamless options.rendering (parse bodyDialect (e.body source)).children := by
  obtain ⟨p, v, q, s, whole⟩ := parse_of_isTaken taken
  have markup := @isHtml_of_mem_bodyNodes (e.body source).toList
  simp only [transform_eq_run he present hf, whole, parse_bodyDialect, Markdown.Node.children]
  generalize bodyNodes (e.body source).toList = ns at markup ⊢
  constructor
  · intro same
    have bare := (showAlike_run_iff [] options .nothing "" [] _ _ (some f)).1 (same [] [] .nothing "")
    have trees := congrArg Prod.fst (Option.some.inj bare)
    exact (Rendering.value_render_behind_data_iff markup s options.rendering v p q _).1 trees
  · intro seamless markdown html files document
    refine showAlike_run_behind html options files document markdown ⟨⟨p, v, q, s, rfl⟩, ⟨_, rfl⟩, rfl⟩ ?_
    rintro ms w a kept ⟨⟨p₁, v', q', s', hw⟩, ⟨p₂, ha⟩, -⟩
    have same : isMixed ms = true → ms = ns := by
      intro mixed
      exact kept.markup (markup (kept.mixed.symm.trans mixed))
    rw [hw, ha]
    refine (Rendering.value_render_behind_data_iff ?_ s' options.rendering v' p₁ q' p₂).2 ?_
    · intro mixed
      obtain rfl := same mixed
      exact markup mixed
    · intro allowed mixed
      obtain rfl := same mixed
      exact seamless allowed mixed

/-- The two readers agree on where the body begins, and the document is transformed like its body alone, just if the
block stands first, has no line that is a fence to the reader of Markdown, and is followed by no byte order mark, and
if markup reads alike as a whole and piece by piece. Behind blank lines the whole document, block included, is read as
a body. -/
theorem transform_eq_run_body_iff (he : Frontmatter.extract source = .ok e) (present : e.present = true)
    (hf : Frontmatter.ofValue (.map e.entries) = .ok f) (options : Options) :
    ((Block.IsTaken source.toList (e.body source).toList ∧
        ∀ (markdown : List MarkdownPass) (html : List HtmlPass) (files : Storage) (document : String),
          ShowAlike (transform ⟨markdown, html, options, none⟩ files source document)
            (run ⟨markdown, html, options, none⟩ files (parse bodyDialect (e.body source)) (some f) document)) ↔
      (∃ b, Block.find source.toList = .found b ∧ b.IsPlain source.toList) ∧
        Rendering.Seamless options.rendering (parse bodyDialect (e.body source)).children) ∧
    (Block.dropBlankLines (Block.dropMark source.toList) ≠ Block.dropMark source.toList →
      ∀ (p : Pipeline) (files : Storage) (document : String),
        p.transform files source document = p.run files (parse bodyDialect source) (some f) document) := by
  obtain ⟨b, found, body⟩ := Frontmatter.find_of_extract he present
  have plain : (∃ b, Block.find source.toList = .found b ∧ b.IsPlain source.toList) ↔
      Block.IsTaken source.toList (e.body source).toList := by
    rw [body, Block.isTaken_iff found, found]
    constructor
    · rintro ⟨b', same, plain⟩
      cases same
      exact plain
    · exact fun plain => ⟨b, rfl, plain⟩
  constructor
  · rw [plain]
    exact and_congr_right fun taken => shown?_transform_iff he present hf options taken
  · intro blank p files document
    rw [transform_eq_run he present hf, parse_of_none (Block.takeMeta_of_blank blank)]

/-- A post whose block stands first. -/
def plainPost : String := "---\ntitle: T\npubDate: 2024-01-01\nsummary: S\n---\n# Hello\n\nText."

theorem transform_plainPost : ∃ e f, Frontmatter.extract plainPost = .ok e ∧ e.present = true ∧
    Frontmatter.ofValue (.map e.entries) = .ok f ∧
      ∀ (markdown : List MarkdownPass) (html : List HtmlPass) (files : Storage) (document : String),
        ShowAlike (transform ⟨markdown, html, {}, none⟩ files plainPost document)
          (run ⟨markdown, html, {}, none⟩ files (parse bodyDialect (e.body plainPost)) (some f) document) := by
  obtain ⟨f, read⟩ := exists_of_accepted plainPost (by decide +kernel)
  obtain ⟨e, he, present, hf⟩ := readFrontmatter_eq_some_iff.1 read
  have body : e.body plainPost = "# Hello\n\nText." := by
    have start : (Frontmatter.extract plainPost).toOption.map (·.body plainPost) = some "# Hello\n\nText." := by
      decide +kernel
    rw [he] at start
    exact Option.some.inj start
  have plain : ∃ b, Block.find plainPost.toList = .found b ∧ b.IsPlain plainPost.toList :=
    ⟨⟨"title: T\npubDate: 2024-01-01\nsummary: S".toList, "# Hello\n\nText.".toList⟩, by decide +kernel,
      ⟨by decide +kernel, by decide +kernel, by decide +kernel⟩⟩
  have seamless : Rendering.Seamless {} (parse bodyDialect (e.body plainPost)).children := by
    intro _ mixed
    rw [body] at mixed
    exact absurd mixed (by decide +kernel)
  exact ⟨e, f, he, present, hf, ((transform_eq_run_body_iff he present hf {}).1.2 ⟨plain, seamless⟩).2⟩

/-- A blank line in front of the block. -/
def lowPost : String := "\n---\ntitle: T\npubDate: 2024-01-01\nsummary: S\n---\nBody"

/-- The metadata are read, but they also stand in the body, as a heading. -/
theorem transform_lowPost : ∃ e f, Frontmatter.extract lowPost = .ok e ∧ e.present = true ∧
    Frontmatter.ofValue (.map e.entries) = .ok f ∧
      ¬ ShowAlike (transformDocument .nothing {} lowPost "post.md")
        ((ofOptions {}).run .nothing (parse bodyDialect (e.body lowPost)) (some f) "post.md") := by
  let texts : Run → Option (List String) := fun r => r.shown?.map fun page => page.2.map (·.text)
  have whole : (transformDocument .nothing {} lowPost "post.md").value?.map texts =
      some (some ["title: T\npubDate: 2024-01-01\nsummary: S"]) := by decide +kernel
  have alone : (readFrontmatter lowPost).toOption.join.map (fun f =>
      ((ofOptions {}).run .nothing (parse bodyDialect "Body") (some f) "post.md").value?.map texts) =
      some (some (some [])) := by decide +kernel
  have start : (Frontmatter.extract lowPost).toOption.map (·.body lowPost) = some "Body" := by decide +kernel
  obtain ⟨f, read⟩ := exists_of_accepted lowPost (by decide +kernel)
  obtain ⟨e, he, present, hf⟩ := readFrontmatter_eq_some_iff.1 read
  rw [he] at start
  rw [read] at alone
  refine ⟨e, f, he, present, hf, ?_⟩
  rintro ⟨r, r', first, second, same⟩
  have body : e.body lowPost = "Body" := Option.some.inj start
  rw [first] at whole
  rw [body] at second
  have alone : ((ofOptions {}).run .nothing (parse bodyDialect "Body") (some f) "post.md").value?.map texts =
      some (some []) := Option.some.inj alone
  rw [second] at alone
  have heads : texts r = texts r' := congrArg (Option.map _) same
  nomatch (Option.some.inj whole).symm.trans (heads.trans (Option.some.inj alone))

end Pipeline

end Folio
