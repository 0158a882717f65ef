import Folio.Include
import Folio.Proofs.Path
import Folio.Proofs.Text

/-!
# When an include root confines

With an include root set, what is read should depend on nothing outside of it. `read_congr_iff_confines`: this holds
exactly of the roots that `Confines` describes. A root whose normal form is empty, such as `.`, is an initial part of
every path, so it lets every path pass; one that is made of `..` lets pass the paths that climb further, which only a
document without a directory can name.
-/

namespace Folio

open Text

namespace CodeMeta

theorem readItem_assign {key v : List Char} (hne : key ≠ []) (hkey : key.all isKeyChar = true) :
    readItem (key ++ '=' :: v) = readValue (String.ofList key) (v.dropWhile isBlank) := by
  have htake : (key ++ '=' :: v).takeWhile isKeyChar = key := by
    rw [List.takeWhile_append_of_pos (List.all_eq_true.1 hkey), List.takeWhile_cons_of_neg (by decide), List.append_nil]
  have hdrop : (key ++ '=' :: v).dropWhile isKeyChar = '=' :: v := by
    rw [List.dropWhile_append_of_pos (List.all_eq_true.1 hkey), List.dropWhile_cons_of_neg (by decide)]
  have hsign : ('=' :: v).dropWhile isBlank = '=' :: v := List.dropWhile_cons_of_neg (by decide)
  unfold readItem
  simp [htake, hdrop, hsign, hne]

/-- A value without separators that starts with no quote is taken as it is. -/
theorem readValue_bare (key : String) {v : List Char} (hne : v ≠ []) (hsep : ∀ c ∈ v, isSeparator c = false)
    (hquote : ∀ c ∈ v.head?, c ≠ '"' ∧ c ≠ '\'') :
    readValue key v = (.entry key (some (String.ofList v)), []) := by
  have htake : v.takeWhile (!isSeparator ·) = v := by
    refine List.takeWhile_eq_self_iff.2 fun c hc => ?_
    simp [hsep c hc]
  have hdrop : v.dropWhile (!isSeparator ·) = [] := by
    refine List.dropWhile_eq_nil_iff.2 fun c hc => ?_
    simp [hsep c hc]
  obtain ⟨c, cs, rfl⟩ := List.exists_cons_of_ne_nil hne
  have hc := hquote c rfl
  have hcomma : c ≠ ',' := by
    rintro rfl
    have := hsep ',' (by simp)
    exact absurd this (by decide)
  rw [readValue, if_neg (by simp [hc]), if_neg hcomma, htake, hdrop]

theorem trim_eq_self {s : List Char} (h : ∀ c ∈ s, isBlank c = false) : trim s = s :=
  trim_eq_self_of_ends (fun c hc => h c (List.mem_of_head? hc)) fun c hc => h c (List.mem_of_getLast? hc)

/-- A meta string with nothing but an unquoted `file` entry. -/
theorem parse_file {v : List Char} (hne : v ≠ []) (hsep : ∀ c ∈ v, isSeparator c = false)
    (hquote : ∀ c ∈ v.head?, c ≠ '"' ∧ c ≠ '\'') :
    (parse (String.ofList ("file".toList ++ '=' :: v))).value = .ok ⟨[(strictKey, some (String.ofList v))]⟩ := by
  set s := "file".toList ++ '=' :: v with hs
  have hall : ∀ c ∈ s, isSeparator c = false := by
    intro c hc
    rcases List.mem_append.1 hc with hc | hc
    · have file : "file".toList.all (!isSeparator ·) = true := by decide
      simpa using List.all_eq_true.1 file c hc
    · rcases List.mem_cons.1 hc with rfl | hc
      · decide
      · exact hsep c hc
  have hblank : ∀ c ∈ s, isBlank c = false := fun c hc => (Bool.or_eq_false_iff.1 (hall c hc)).1
  have hitems : items s = [.entry strictKey (some (String.ofList v))] := by
    have hv : v.dropWhile isBlank = v := by
      obtain ⟨c, cs, rfl⟩ := List.exists_cons_of_ne_nil hne
      exact List.dropWhile_cons_of_neg (by simp [hblank c (by simp [hs])])
    have hd : s.dropWhile isSeparator = s := List.dropWhile_cons_of_neg (by decide)
    have hr : readItem s = (.entry strictKey (some (String.ofList v)), []) := by
      rw [hs, readItem_assign (by decide) (by decide), hv, readValue_bare _ hne hsep hquote]
      rfl
    rw [items, hd, dif_neg (by simp [hs]), hr, items]
    simp
  have hbrace : unbrace s = s := rfl
  rw [parse, String.toList_ofList, trim_eq_self hblank, hbrace, hitems]
  rfl

end CodeMeta

namespace Include

/-! ### Roots that confine -/

/-- Does a place lie in the include root? -/
def Inside (dir : List (List Char)) (root : Path) (place : List (List Char)) : Prop := root.walk dir <+: place

/-- An include root confines a document unless it is made of `..` alone, or of nothing, and leads to a directory that
is not the top, and there are paths behind it that leave it: any path if the root is empty, and the paths that climb
further if the document has no directory. -/
def Confines (dir : List (List Char)) (document root : Path) : Prop :=
  (∀ c ∈ root.normalize.parts, c = .up) →
    root.walk dir = [] ∨ root.normalize.parts ≠ [] ∧ document.parent?.isSome

theorem violatedRoot?_eq_none_iff {root : String} {p : Path} :
    violatedRoot? (some root) p = none ↔ p.startsWith (Path.ofString root).normalize = true := by
  unfold violatedRoot?
  simp

/-- Only the entries that includes may name matter. -/
theorem read_congr {a b : Storage} {ctx : IncludeContext} (metaText : String) (location : Option Location)
    (h : ∀ reference, violatedRoot? ctx.root (resolve (.ofString ctx.document) reference) = none →
      a.look (resolve (.ofString ctx.document) reference) = b.look (resolve (.ofString ctx.document) reference)) :
    read a metaText ctx location = read b metaText ctx location := by
  unfold read
  congr 1
  funext r
  cases r with
  | error e => rfl
  | ok m =>
    cases hf : m.file? with
    | none => simp only [hf]
    | some reference =>
      simp only [hf]
      cases hv : violatedRoot? ctx.root (resolve (.ofString ctx.document) (.ofString reference)) with
      | some r => rfl
      | none => simp only [h _ hv]

/-- A document with a directory has absolute includes only. -/
theorem isAbsolute_resolve {document : Path} (habs : document.isAbsolute = true) (hdir : document.parent?.isSome)
    (reference : Path) : (resolve document reference).isAbsolute = true := by
  obtain ⟨p, hp⟩ := Option.isSome_iff_exists.1 hdir
  refine Path.isAbsolute_normalize ?_
  rw [hp, Option.getD_some, Path.join]
  split
  · rename_i h
    exact List.mem_of_head? (of_decide_eq_true h)
  · unfold Path.parent? at hp
    split at hp
    · cases hp
    · cases hp
    · rename_i c hne hlast
      obtain rfl := Option.some.inj hp
      obtain ⟨cs, hcs⟩ := List.head?_eq_some_iff.1 (of_decide_eq_true habs)
      cases cs with
      | nil => simp [hcs] at hlast; exact absurd hlast.symm hne
      | cons d ds => simp [hcs]

/-- With a root that confines, includes lie in it. -/
theorem inside_resolve {dir : List (List Char)} {document root reference : Path} (habs : document.isAbsolute = true)
    (hconf : Confines dir document root)
    (h : (resolve document reference).startsWith root.normalize = true) :
    Inside dir root ((resolve document reference).walk dir) := by
  by_cases hup : ∀ c ∈ root.normalize.parts, c = .up
  · rcases hconf hup with htop | ⟨hne, hdir⟩
    · rw [Inside, htop]
      exact List.nil_prefix
    · -- an absolute path does not start with `..`
      exfalso
      obtain ⟨c, cs, hcs⟩ := List.exists_cons_of_ne_nil hne
      obtain ⟨ds, hds⟩ := List.isPrefixOf_iff_prefix.1 h
      have hroot := of_decide_eq_true (isAbsolute_resolve habs hdir reference)
      rw [← hds, hcs] at hroot
      obtain rfl : c = .root := by simpa using hroot
      cases hup .root (by simp [hcs])
  · obtain ⟨c, hc, hne⟩ : ∃ c ∈ root.normalize.parts, c ≠ .up := by simpa using hup
    rw [Inside, ← Path.walk_normalize root]
    exact Path.walk_isPrefix_walk (Path.isNormal_normalize _) h ⟨c, hc, hne⟩ dir

/-! ### Ways out of the other roots -/

/-- What a meta string asks for is looked up where the root lets it pass. -/
theorem value_read {files : Storage} {ctx : IncludeContext} {metaText reference : String} {m : CodeMeta}
    {location : Option Location} (hm : (CodeMeta.parse metaText).value = .ok m) (hf : m.file? = some reference)
    (hv : violatedRoot? ctx.root (resolve (.ofString ctx.document) (.ofString reference)) = none) :
    (read files metaText ctx location).value =
      match files.look (resolve (.ofString ctx.document) (.ofString reference)) with
      | .missing => .error (.missingInclude (resolve (.ofString ctx.document) (.ofString reference)).text metaText
          ctx.document location)
      | .unreadable why =>
        .error (.includeRead (resolve (.ofString ctx.document) (.ofString reference)).text why.message)
      | .file text => .ok (some (String.ofList (Text.trimEnd text.toList))) := by
  unfold read
  simp only [Logged.value_bind, hm, hf, hv]
  cases files.look (resolve (.ofString ctx.document) (.ofString reference)) <;> rfl

/-- A reference without separators and quotes. -/
def IsPlain (v : List Char) : Prop := v ≠ [] ∧ ∀ c ∈ v, CodeMeta.isSeparator c = false ∧ c ≠ '"' ∧ c ≠ '\''

theorem isPlain_of_all {v : List Char} (hne : v ≠ [])
    (h : v.all (fun c => !CodeMeta.isSeparator c && c != '"' && c != '\'') = true) : IsPlain v := by
  refine ⟨hne, fun c hc => ?_⟩
  simpa [and_assoc] using List.all_eq_true.1 h c hc

/-- Where a reference leads out of the include root, two file systems that agree inside of it are told apart. -/
theorem exists_read_ne {dir : List (List Char)} {document root : String} {v : List Char} (hv : IsPlain v)
    (hpass : violatedRoot? (some root) (resolve (.ofString document) (.ofChars v)) = none)
    (hne : (resolve (.ofString document) (.ofChars v)).parts ≠ [])
    (hout : ¬ Inside dir (.ofString root) ((resolve (.ofString document) (.ofChars v)).walk dir)) :
    ∃ (metaText : String) (a b : Storage), a.workingDirectory = dir ∧ b.workingDirectory = dir ∧
      (∀ place, Inside dir (.ofString root) place → a.entry place = b.entry place) ∧
      read a metaText ⟨document, some root⟩ none ≠ read b metaText ⟨document, some root⟩ none := by
  set place := (resolve (.ofString document) (.ofChars v)).walk dir with hplace
  refine ⟨String.ofList ("file".toList ++ '=' :: v), ⟨dir, fun _ => .missing⟩,
    ⟨dir, fun q => if q = place then .file "" else .missing⟩, rfl, rfl, fun q hq => ?_, fun h => ?_⟩
  · have hq : q ≠ place := by
      rintro rfl
      exact hout hq
    simp [hq]
  · have hm := CodeMeta.parse_file hv.1 (fun c hc => (hv.2 c hc).1) fun c hc =>
      (hv.2 c (List.mem_of_head? hc)).2
    have hf : CodeMeta.file? ⟨[(CodeMeta.strictKey, some (String.ofList v))]⟩ = some (String.ofList v) := by
      simp [CodeMeta.file?, CodeMeta.get?, hv.1]
    have hpath : Path.ofString (String.ofList v) = .ofChars v := by rw [Path.ofString, String.toList_ofList]
    have h := congrArg Logged.value h
    rw [value_read hm hf (by rw [hpath]; exact hpass), value_read hm hf (by rw [hpath]; exact hpass), hpath] at h
    simp [Storage.look, hne, ← hplace] at h

/-- Of two names in the top directory, one at least is not below a directory that is not the top. -/
theorem exists_not_isPrefix {dir : List (List Char)} (h : dir ≠ []) : ∃ c ∈ ['a', 'b'], ¬ dir <+: [[c]] := by
  obtain ⟨d, ds, rfl⟩ := List.exists_cons_of_ne_nil h
  by_cases hd : d = ['a']
  · exact ⟨'b', by simp, by simp [hd]⟩
  · exact ⟨'a', by simp, by simp [hd]⟩

/-- A reference that climbs so many directories and names a file there. -/
def climb (m : Nat) (c : Char) : List Char := (List.replicate m ['.', '.', '/']).flatten ++ [c]

theorem isPlain_climb (m : Nat) {c : Char} (hc : c ∈ ['a', 'b']) : IsPlain (climb m c) := by
  refine ⟨by simp [climb], fun d hd => ?_⟩
  have hall : IsPlain ['.', '/', 'a', 'b'] := isPlain_of_all (List.cons_ne_nil _ _) (by decide)
  refine hall.2 d ?_
  rcases List.mem_append.1 hd with hd | hd
  · obtain ⟨l, hl, hd⟩ := List.mem_flatten.1 hd
    rw [List.eq_of_mem_replicate hl] at hd
    rcases List.mem_cons.1 hd with rfl | hd
    · simp
    · rcases List.mem_pair.1 hd with rfl | rfl <;> simp
  · obtain rfl := List.mem_singleton.1 hd
    rcases List.mem_pair.1 hc with rfl | rfl <;> simp

theorem splitOn_climb (m : Nat) {c : Char} (hc : c ≠ '/') :
    splitOn '/' (climb m c) = List.replicate m ['.', '.'] ++ [[c]] := by
  induction m with
  | zero => simp [climb, splitOn, hc]
  | succ m ih =>
    have hcons : climb (m + 1) c = '.' :: '.' :: '/' :: climb m c := rfl
    rw [hcons, List.replicate_succ, List.cons_append, ← ih]
    simp [splitOn]

theorem ofChars_climb (m : Nat) {c : Char} (hc : c ∈ ['a', 'b']) :
    Path.ofChars (climb m c) = ⟨List.replicate m .up ++ [.name [c]]⟩ := by
  have hslash : c ≠ '/' := by rintro rfl; simp at hc
  have hname : Path.component? [c] = some (.name [c]) := by
    rcases List.mem_pair.1 hc with rfl | rfl <;> rfl
  have hups : (List.replicate m ['.', '.']).filterMap Path.component? = List.replicate m .up := by
    induction m with
    | zero => rfl
    | succ m ih =>
      have hup : Path.component? ['.', '.'] = some .up := rfl
      rw [List.replicate_succ, List.filterMap_cons_some hup, ih, List.replicate_succ]
  unfold Path.ofChars
  rw [splitOn_climb m hslash]
  cases m with
  | zero =>
    rcases List.mem_pair.1 hc with rfl | rfl <;> rfl
  | succ m =>
    simp only [List.filterMap_append, hups, List.filterMap_cons_some hname, List.filterMap_nil]
    rfl

theorem normalize_climb (m : Nat) (s : List Char) :
    Path.normalize ⟨List.replicate m .up ++ [.name s]⟩ = ⟨List.replicate m .up ++ [.name s]⟩ := by
  have hups : ∀ j, (List.replicate m Component.up).foldl Path.push (List.replicate j .up) =
      List.replicate (j + m) .up := by
    induction m with
    | zero => exact fun j => rfl
    | succ m ih =>
      intro j
      have hpush : Path.push (List.replicate j .up) .up = List.replicate (j + 1) .up := by cases j <;> rfl
      rw [List.replicate_succ, List.foldl_cons, hpush, ih]
      congr 1
      omega
  have h := hups 0
  simp only [List.replicate_zero, Nat.zero_add] at h
  simp [Path.normalize, List.foldl_append, h, Path.push]

theorem resolve_top (document : Path) {c : Char} (hc : c ∈ ['a', 'b']) :
    resolve document (.ofChars ['/', c]) = ⟨[.root, .name [c]]⟩ := by
  have h : Path.ofChars ['/', c] = ⟨[.root, .name [c]]⟩ := by rcases List.mem_pair.1 hc with rfl | rfl <;> rfl
  rw [h]
  rfl

theorem resolve_climb {document : Path} (hdoc : document.parent? = none) (m : Nat) {c : Char} (hc : c ∈ ['a', 'b']) :
    resolve document (.ofChars (climb m c)) = ⟨List.replicate m .up ++ [.name [c]]⟩ := by
  have habs : Path.isAbsolute ⟨List.replicate m .up ++ [.name [c]]⟩ = false := by
    cases m <;> simp [Path.isAbsolute, List.replicate_succ]
  rw [resolve, hdoc, ofChars_climb m hc, Option.getD_none, Path.join, habs]
  simp [Path.empty, normalize_climb]

/-- An include root that does not confine lets a reference pass that leads out of it. -/
theorem exists_way_out {dir : List (List Char)} {document root : Path} (h : ¬ Confines dir document root) :
    ∃ v, IsPlain v ∧ (resolve document (.ofChars v)).startsWith root.normalize = true ∧
      (resolve document (.ofChars v)).parts ≠ [] ∧ ¬ Inside dir root ((resolve document (.ofChars v)).walk dir) := by
  obtain ⟨hup, htop, hway⟩ : (∀ c ∈ root.normalize.parts, c = .up) ∧ root.walk dir ≠ [] ∧
      (root.normalize.parts = [] ∨ document.parent? = none) := by
    simp only [Confines, Classical.not_imp, not_or] at h
    refine ⟨h.1, h.2.1, ?_⟩
    by_cases hr : root.normalize.parts = []
    · exact .inl hr
    · exact .inr (by simpa [hr] using h.2.2)
  obtain ⟨c, hc, hout⟩ := exists_not_isPrefix htop
  rcases hway with hr | hdoc
  · refine ⟨['/', c], ?_, ?_, ?_, ?_⟩
    · rcases List.mem_pair.1 hc with rfl | rfl <;> exact isPlain_of_all (List.cons_ne_nil _ _) (by decide)
    · simp [Path.startsWith, hr]
    · simp [resolve_top document hc]
    · rw [resolve_top document hc]
      exact hout
  · -- as many `..` as there are directories lead to the top
    have hrep := List.eq_replicate_of_mem hup
    set k := root.normalize.parts.length
    have hk : k < dir.length := by
      have hwalk : root.walk dir = dir.take (dir.length - k) := by
        rw [← Path.walk_normalize, ← Path.walk_replicate_up, ← hrep]
      by_contra hle
      rw [hwalk, Nat.sub_eq_zero_of_le (by omega)] at htop
      exact htop rfl
    refine ⟨climb dir.length c, isPlain_climb _ hc, ?_, ?_, ?_⟩
    · rw [resolve_climb hdoc _ hc, Path.startsWith, hrep, List.isPrefixOf_iff_prefix]
      refine List.IsPrefix.trans ?_ (List.prefix_append ..)
      exact ⟨List.replicate (dir.length - k) .up, by rw [← List.replicate_add]; congr 1; omega⟩
    · simp [resolve_climb hdoc _ hc]
    · rw [resolve_climb hdoc _ hc, Path.walk_mk_append, Path.walk_replicate_up, Nat.sub_self]
      exact hout

/-- With an absolute document, what is read depends on nothing outside of the include root exactly if the root
confines. -/
theorem read_congr_iff_confines (dir : List (List Char)) (document root : String)
    (habs : (Path.ofString document).isAbsolute = true) :
    (∀ (metaText : String) (location : Option Location) (a b : Storage), a.workingDirectory = dir →
      b.workingDirectory = dir → (∀ place, Inside dir (.ofString root) place → a.entry place = b.entry place) →
      read a metaText ⟨document, some root⟩ location = read b metaText ⟨document, some root⟩ location) ↔
    Confines dir (.ofString document) (.ofString root) := by
  constructor
  · intro hread
    by_contra hconf
    obtain ⟨v, hv, hpass, hne, hout⟩ := exists_way_out hconf
    obtain ⟨m, a, b, ha, hb, hab, hdiff⟩ := exists_read_ne hv (violatedRoot?_eq_none_iff.2 hpass) hne hout
    exact hdiff (hread m none a b ha hb hab)
  · intro hconf metaText location a b ha hb hab
    refine read_congr metaText location fun reference hpass => ?_
    have hin : Inside dir (.ofString root) ((resolve (.ofString document) reference).walk dir) :=
      inside_resolve habs hconf (violatedRoot?_eq_none_iff.1 hpass)
    unfold Storage.look
    split
    · rfl
    · rw [ha, hb]
      exact hab _ hin

/-- The working directory as include root lets an absolute document include its neighbours, wherever it stands. -/
theorem read_depends_on_outside :
    let here : Storage := ⟨[['w']], fun _ => .missing⟩
    let there : Storage := ⟨[['w']], fun place => if place = [['a'], ['c']] then .file "secret" else .missing⟩
    (∀ place, Inside [['w']] (.ofString ".") place → here.entry place = there.entry place) ∧
      (read here "file=c" ⟨"/a/doc.md", some "."⟩ none).value =
        .error (.missingInclude "/a/c" "file=c" "/a/doc.md" none) ∧
      (read there "file=c" ⟨"/a/doc.md", some "."⟩ none).value = .ok (some "secret") := by
  refine ⟨fun place hin => ?_, ?_, ?_⟩
  · have hplace : place ≠ [['a'], ['c']] := by
      rintro rfl
      have hnot : ¬ (Path.ofString ".").walk [['w']] <+: [['a'], ['c']] := by decide
      exact hnot hin
    simp [hplace]
  · decide +kernel
  · decide +kernel

theorem read_congr_blog :
    (Path.ofString "/blog/post.md").isAbsolute = true ∧
      ∀ (metaText : String) (location : Option Location) (a b : Storage), a.workingDirectory = [['w']] →
        b.workingDirectory = [['w']] →
        (∀ place, Inside [['w']] (.ofString "/blog/./files/..") place → a.entry place = b.entry place) →
        read a metaText ⟨"/blog/post.md", some "/blog/./files/.."⟩ location =
          read b metaText ⟨"/blog/post.md", some "/blog/./files/.."⟩ location := by
  refine ⟨by decide, (read_congr_iff_confines [['w']] "/blog/post.md" "/blog/./files/.." (by decide)).2 fun hup => ?_⟩
  cases hup .root (by decide)

end Include

end Folio
