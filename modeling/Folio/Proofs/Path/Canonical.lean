import Folio.Include
import Folio.Proofs.Path
import Mathlib.Data.Set.List

/-!
# Normal forms are canonical

A normal form is the root or some `..` with names behind it (`IsNormal.exists_names`), so the places it leads to tell how
often it climbs and which names it appends: two normal forms that lead everywhere to the same place are equal
(`IsNormal.eq_of_samePlaces`). Written as text it reads back as it is (`ofString_text`). `normalize_canonical` puts this
together for paths that are read from texts.
-/

namespace Folio

/-! ### Pieces between slashes -/

namespace Text

theorem splitOn_of_not_mem {d : Char} {w : List Char} (h : d ∉ w) : splitOn d w = [w] := by
  induction w with
  | nil => rfl
  | cons c w ih =>
    obtain ⟨hc, hw⟩ := List.ne_and_not_mem_of_not_mem_cons h
    rw [splitOn, if_neg (Ne.symm hc), ih hw]

theorem splitOn_append {d : Char} {w : List Char} (h : d ∉ w) (s : List Char) :
    splitOn d (w ++ d :: s) = w :: splitOn d s := by
  induction w with
  | nil => simp [splitOn]
  | cons c w ih =>
    obtain ⟨hc, hw⟩ := List.ne_and_not_mem_of_not_mem_cons h
    rw [List.cons_append, splitOn, if_neg (Ne.symm hc), ih hw]

theorem not_mem_of_mem_splitOn {d : Char} {s w : List Char} (h : w ∈ splitOn d s) : d ∉ w := by
  induction s generalizing w with
  | nil =>
    obtain rfl := List.mem_singleton.1 h
    exact List.not_mem_nil
  | cons c s ih =>
    rw [splitOn] at h
    split at h
    · rcases List.mem_cons.1 h with rfl | h
      · exact List.not_mem_nil
      · exact ih h
    · next hc =>
      split at h
      · next hs =>
        obtain rfl := List.mem_singleton.1 h
        simpa using Ne.symm hc
      · next v vs hs =>
        rcases List.mem_cons.1 h with rfl | h
        · exact List.not_mem_cons_of_ne_of_not_mem (Ne.symm hc) (ih (hs ▸ List.mem_cons_self))
        · exact ih (hs ▸ List.mem_cons_of_mem v h)

end Text

namespace Path

open Text

/-! ### Names -/

/-- May a text stand for a name between slashes? -/
def IsName (s : List Char) : Prop := s ≠ [] ∧ '/' ∉ s ∧ s ≠ ['.'] ∧ s ≠ ['.', '.']

theorem isName_of_component? {piece s : List Char} (hslash : '/' ∉ piece)
    (h : component? piece = some (.name s)) : IsName s := by
  unfold component? at h
  split at h
  · cases h
  · next hdot =>
    split at h
    · cases h
    · next hdots =>
      cases h
      have plain : piece ≠ [] ∧ piece ≠ ['.'] := by simpa using hdot
      exact ⟨plain.1, hslash, plain.2, hdots⟩

theorem component?_of_isName {s : List Char} (h : IsName s) : component? s = some (.name s) := by
  obtain ⟨hne, -, hdot, hdots⟩ := h
  simp [component?, hne, hdot, hdots]

theorem mem_of_mem_push {done : List Component} {c d : Component} (h : c ∈ push done d) : c = d ∨ c ∈ done := by
  cases d with
  | here => exact .inr h
  | root => exact .inl (List.mem_singleton.1 h)
  | name s => exact List.mem_cons.1 h
  | up =>
    match done, h with
    | .name _ :: _, h => exact .inr (List.mem_cons_of_mem _ h)
    | .root :: _, h => exact .inr h
    | [], h | .here :: _, h | .up :: _, h => exact List.mem_cons.1 h

theorem mem_of_mem_normalize {p : Path} {c : Component} (h : c ∈ p.normalize.parts) : c ∈ p.parts := by
  suffices hs : ∀ cs done : List Component, c ∈ cs.foldl push done → c ∈ cs ∨ c ∈ done by
    simpa using hs p.parts [] (List.mem_reverse.1 h)
  intro cs
  induction cs with
  | nil => exact fun done h => .inr h
  | cons d cs ih =>
    intro done h
    rcases ih _ h with h | h
    · exact .inl (List.mem_cons_of_mem d h)
    · rcases mem_of_mem_push h with rfl | h
      · exact .inl List.mem_cons_self
      · exact .inr h

/-- The components that stand between slashes. -/
inductive IsInner : Component → Prop
  | up : IsInner .up
  | name {n : List Char} (h : IsName n) : IsInner (.name n)

/-- The root and a `.` stand in front only. -/
theorem ofChars_cases (s : List Char) :
    ∃ front cs, (ofChars s).parts = front ++ cs ∧ (front = [.root] ∨ front = [.here] ∨ front = []) ∧
      ∀ c ∈ cs, IsInner c := by
  refine ⟨_, _, rfl, ?_, ?_⟩
  · split
    · exact .inl rfl
    · exact .inr (.inl rfl)
    · exact .inr (.inr rfl)
  · intro c hc
    obtain ⟨piece, hpiece, h⟩ := List.mem_filterMap.1 hc
    cases c with
    | up => exact .up
    | name n => exact .name (isName_of_component? (not_mem_of_mem_splitOn hpiece) h)
    | root | here =>
      unfold component? at h
      split at h
      · cases h
      · split at h <;> cases h

theorem isName_of_mem_ofString {s : String} {n : List Char} (h : .name n ∈ (ofString s).parts) : IsName n := by
  obtain ⟨front, cs, hparts, hfront, hcs⟩ := ofChars_cases s.toList
  rw [ofString, hparts] at h
  rcases List.mem_append.1 h with h | h
  · rcases hfront with rfl | rfl | rfl <;> simp at h
  · cases hcs _ h with
    | name hname => exact hname

theorem isAbsolute_ofString_of_root {s : String} (h : .root ∈ (ofString s).parts) : (ofString s).isAbsolute = true := by
  obtain ⟨front, cs, hparts, hfront, hcs⟩ := ofChars_cases s.toList
  have hcs : .root ∉ cs := fun hroot => nomatch hcs _ hroot
  rw [ofString, hparts] at h
  rw [isAbsolute, ofString, hparts]
  rcases hfront with rfl | rfl | rfl
  · rfl
  · simp [hcs] at h
  · exact absurd h hcs

/-! ### The two kinds of normal forms -/

namespace IsNormal

variable {cs : List Component}

theorem tail {c : Component} (h : IsNormal (c :: cs)) : IsNormal cs :=
  ⟨fun hc => h.here (List.mem_cons_of_mem c hc), (List.pairwise_cons.1 h.leads).2⟩

/-- Behind a component other than `..` a normal form has names only. -/
theorem exists_names_tail {c : Component} (h : IsNormal (c :: cs)) (hc : c ≠ .up) :
    ∃ ns : List (List Char), cs = ns.map .name := by
  have names : cs ∈ Set.range (List.map Component.name) := by
    rw [Set.range_list_map]
    intro d hd
    rcases (List.pairwise_cons.1 h.leads).1 d hd with ⟨s, rfl⟩ | ⟨hup, -⟩
    · exact ⟨s, rfl⟩
    · exact absurd hup hc
  obtain ⟨ns, rfl⟩ := names
  exact ⟨ns, rfl⟩

/-- Names behind the root, or behind some `..`. -/
theorem exists_names (h : IsNormal cs) :
    (∃ ns : List (List Char), cs = .root :: ns.map .name) ∨
      ∃ (k : Nat) (ns : List (List Char)), cs = List.replicate k .up ++ ns.map .name := by
  induction cs with
  | nil => exact .inr ⟨0, [], rfl⟩
  | cons c cs ih =>
    cases c with
    | here => exact absurd List.mem_cons_self h.here
    | root =>
      obtain ⟨ns, rfl⟩ := h.exists_names_tail (by simp)
      exact .inl ⟨ns, rfl⟩
    | name s =>
      obtain ⟨ns, rfl⟩ := h.exists_names_tail (by simp)
      exact .inr ⟨0, s :: ns, rfl⟩
    | up =>
      rcases ih h.tail with ⟨ns, rfl⟩ | ⟨k, ns, rfl⟩
      · rcases (List.pairwise_cons.1 h.leads).1 .root List.mem_cons_self with ⟨s, hs⟩ | ⟨-, hs⟩ <;> cases hs
      · exact .inr ⟨k + 1, ns, by rw [List.replicate_succ, List.cons_append]⟩

/-- A component of a normal form is added to those before it. -/
theorem push_eq {c : Component} (h : IsNormal (cs ++ [c])) : Path.push cs.reverse c = c :: cs.reverse := by
  have before : ∀ a ∈ cs, Leads a c := fun a ha =>
    (List.pairwise_append.1 h.leads).2.2 a ha c (List.mem_singleton.2 rfl)
  cases c with
  | here => exact absurd (by simp) h.here
  | name s => rfl
  | root =>
    cases cs with
    | nil => rfl
    | cons a cs => rcases before a List.mem_cons_self with ⟨s, hs⟩ | ⟨-, hs⟩ <;> cases hs
  | up =>
    have ups : ∀ a ∈ cs.reverse, a = .up := by
      intro a ha
      rcases before a (List.mem_reverse.1 ha) with ⟨s, hs⟩ | ⟨hup, -⟩
      · cases hs
      · exact hup
    cases hrev : cs.reverse with
    | nil => rfl
    | cons a as =>
      obtain rfl : a = .up := ups a (by simp [hrev])
      rfl

theorem foldl_push (h : IsNormal cs) : cs.foldl Path.push [] = cs.reverse := by
  induction cs using List.reverseRecOn with
  | nil => rfl
  | append_singleton cs c ih => rw [List.foldl_concat, ih h.of_append, h.push_eq, List.reverse_concat]

end IsNormal

/-- A normal form is its own normal form. -/
theorem normalize_of_isNormal {p : Path} (h : IsNormal p.parts) : p.normalize = p := by
  rw [normalize, h.foldl_push, List.reverse_reverse]

theorem normalize_normalize (p : Path) : p.normalize.normalize = p.normalize :=
  normalize_of_isNormal (isNormal_normalize p)

/-! ### Where normal forms lead -/

theorem walk_rooted (ns dir : List (List Char)) : walk ⟨.root :: ns.map .name⟩ dir = ns := by
  show walk ⟨ns.map .name⟩ [] = ns
  rw [walk_names, List.nil_append]

theorem walk_climbing (k : Nat) (ns dir : List (List Char)) :
    walk ⟨List.replicate k .up ++ ns.map .name⟩ dir = dir.take (dir.length - k) ++ ns := by
  rw [walk_mk_append, walk_replicate_up, walk_names]

/-- How far below the top a path leads from a place so far below it. -/
theorem length_walk_climbing (k n : Nat) (ns : List (List Char)) :
    (walk ⟨List.replicate k .up ++ ns.map .name⟩ (List.replicate n ['a'])).length = n - k + ns.length := by
  rw [walk_climbing, List.length_append, List.length_take, List.length_replicate]
  omega

/-- Do two paths lead from every directory to the same place? -/
def SamePlaces (p q : Path) : Prop :=
  ∀ dir : List (List Char), (∀ n ∈ dir, IsName n) → p.walk dir = q.walk dir

theorem SamePlaces.symm {p q : Path} (h : p.SamePlaces q) : q.SamePlaces p := fun dir hdir => (h dir hdir).symm

theorem SamePlaces.length_eq {p q : Path} (h : p.SamePlaces q) (n : Nat) :
    (p.walk (List.replicate n ['a'])).length = (q.walk (List.replicate n ['a'])).length := by
  refine congrArg List.length (h _ fun m hm => ?_)
  rw [List.eq_of_mem_replicate hm]
  unfold IsName
  decide

/-- From deeper directories a climb leads deeper, and the root does not. -/
theorem not_samePlaces_rooted_climbing (ns ms : List (List Char)) (k : Nat) :
    ¬ SamePlaces ⟨.root :: ns.map .name⟩ ⟨List.replicate k .up ++ ms.map .name⟩ := by
  intro h
  have here := h.length_eq k
  have deeper := h.length_eq (k + 1)
  rw [walk_rooted, length_walk_climbing] at here deeper
  omega

/-- Normal forms that lead everywhere to the same place are equal. -/
theorem IsNormal.eq_of_samePlaces {p q : Path} (hp : IsNormal p.parts) (hq : IsNormal q.parts) (h : p.SamePlaces q) :
    p = q := by
  obtain ⟨cs⟩ := p
  obtain ⟨ds⟩ := q
  rcases hp.exists_names with ⟨ns, rfl⟩ | ⟨k, ns, rfl⟩ <;> rcases hq.exists_names with ⟨ms, rfl⟩ | ⟨l, ms, rfl⟩
  · have top := h [] (List.forall_mem_nil _)
    rw [walk_rooted, walk_rooted] at top
    rw [top]
  · exact absurd h (not_samePlaces_rooted_climbing ns ms l)
  · exact absurd h.symm (not_samePlaces_rooted_climbing ms ns k)
  · have top := h [] (List.forall_mem_nil _)
    rw [walk_climbing, walk_climbing, List.take_nil, List.take_nil, List.nil_append, List.nil_append] at top
    have low := h.length_eq (k + l)
    rw [length_walk_climbing, length_walk_climbing, top] at low
    have same : k = l := by omega
    rw [top, same]

theorem samePlaces_iff (p q : Path) : p.SamePlaces q ↔ p.normalize = q.normalize := by
  constructor
  · intro h
    refine IsNormal.eq_of_samePlaces (isNormal_normalize p) (isNormal_normalize q) fun dir hdir => ?_
    rw [walk_normalize, walk_normalize]
    exact h dir hdir
  · intro h dir _
    rw [← walk_normalize p, h, walk_normalize]

/-! ### The text of a normal form -/

theorem joinParts_cons (c d : Component) (cs : List Component) :
    joinParts (c :: d :: cs) = Component.text c ++ '/' :: joinParts (d :: cs) := rfl

theorem splitOn_joinParts {cs : List Component} (hne : cs ≠ []) (h : ∀ c ∈ cs, '/' ∉ Component.text c) :
    splitOn '/' (joinParts cs) = cs.map Component.text := by
  induction cs with
  | nil => exact absurd rfl hne
  | cons c cs ih =>
    obtain ⟨hc, hcs⟩ := List.forall_mem_cons.1 h
    cases cs with
    | nil => exact splitOn_of_not_mem hc
    | cons d ds =>
      rw [joinParts_cons, splitOn_append hc, ih (List.cons_ne_nil d ds) hcs]
      rfl

/-- Inner components are what is read from their texts. -/
theorem filterMap_component? {cs : List Component} (h : ∀ c ∈ cs, IsInner c) :
    (cs.map Component.text).filterMap component? = cs := by
  induction cs with
  | nil => rfl
  | cons c cs ih =>
    obtain ⟨hc, hcs⟩ := List.forall_mem_cons.1 h
    have first : component? (Component.text c) = some c := by
      cases hc with
      | up => rfl
      | name hn => exact component?_of_isName hn
    rw [List.map_cons, List.filterMap_cons_some first, ih hcs]

theorem IsInner.not_mem_text {c : Component} (h : IsInner c) : '/' ∉ Component.text c := by
  cases h with
  | up => decide
  | name hn => exact hn.2.1

/-- The text of a relative path starts with the text of a component, which is neither empty nor `.`. -/
theorem ofChars_joinParts {cs : List Component} (h : ∀ c ∈ cs, IsInner c) :
    ofChars (joinParts cs) = ⟨cs⟩ := by
  rcases cs with _ | ⟨c, cs⟩
  · rfl
  · have first : ∃ d w, Component.text c = d :: w ∧ d ≠ '/' ∧ Component.text c ≠ ['.'] := by
      cases (List.forall_mem_cons.1 h).1 with
      | up => exact ⟨'.', ['.'], rfl, by decide, by decide⟩
      | name hn =>
        obtain ⟨hne, hslash, hdot, -⟩ := hn
        obtain ⟨d, w, rfl⟩ := List.exists_cons_of_ne_nil hne
        exact ⟨d, w, rfl, Ne.symm (List.ne_of_not_mem_cons hslash), hdot⟩
    obtain ⟨d, w, htext, hd, hdot⟩ := first
    have start : ∃ t, joinParts (c :: cs) = d :: t := by
      cases cs with
      | nil => exact ⟨w, htext⟩
      | cons e es => exact ⟨w ++ '/' :: joinParts (e :: es), by rw [joinParts_cons, htext, List.cons_append]⟩
    obtain ⟨t, ht⟩ := start
    have pieces := splitOn_joinParts (List.cons_ne_nil c cs) fun c hc => (h c hc).not_mem_text
    unfold ofChars
    dsimp only
    rw [pieces, filterMap_component? h, ht]
    simp [hd, hdot]

/-- A path below the root is written with a slash in front. -/
theorem ofChars_slash_joinParts {cs : List Component} (h : ∀ c ∈ cs, IsInner c) :
    ofChars ('/' :: joinParts cs) = ⟨.root :: cs⟩ := by
  have pieces : (splitOn '/' ('/' :: joinParts cs)).filterMap component? = cs := by
    rw [splitOn, if_pos rfl, List.filterMap_cons_none rfl]
    cases cs with
    | nil => rfl
    | cons c cs =>
      rw [splitOn_joinParts (List.cons_ne_nil c cs) fun c hc => (h c hc).not_mem_text, filterMap_component? h]
  unfold ofChars
  dsimp only
  rw [pieces]
  rfl

/-- A normal form with names that can be read is what its text says. -/
theorem ofString_text {p : Path} (h : IsNormal p.parts) (hnames : ∀ n, .name n ∈ p.parts → IsName n) :
    ofString p.text = p := by
  obtain ⟨cs⟩ := p
  rcases h.exists_names with ⟨ns, rfl⟩ | ⟨k, ns, rfl⟩
  · have written : text ⟨.root :: ns.map .name⟩ = String.ofList ('/' :: joinParts (ns.map .name)) := by
      cases ns <;> rfl
    rw [ofString, written, String.toList_ofList, ofChars_slash_joinParts]
    intro c hc
    obtain ⟨n, hn, rfl⟩ := List.mem_map.1 hc
    exact .name (hnames n (List.mem_cons_of_mem _ hc))
  · have parts : ∀ c ∈ List.replicate k Component.up ++ ns.map .name, IsInner c := by
      intro c hc
      rcases List.mem_append.1 hc with hup | hname
      · exact List.eq_of_mem_replicate hup ▸ .up
      · obtain ⟨n, hn, rfl⟩ := List.mem_map.1 hname
        exact .name (hnames n hc)
    have written : text ⟨List.replicate k .up ++ ns.map .name⟩ =
        String.ofList (joinParts (List.replicate k .up ++ ns.map .name)) := by
      unfold text
      split
      · next hroot => cases k <;> cases ns <;> simp [List.replicate_succ] at hroot
      · rfl
    rw [ofString, written, String.toList_ofList, ofChars_joinParts parts]

/-! ### Paths of references -/

theorem walk_of_isAbsolute {p : Path} (h : p.isAbsolute = true) (dir dir' : List (List Char)) :
    p.walk dir = p.walk dir' := by
  obtain ⟨cs⟩ := p
  obtain ⟨cs, rfl⟩ := List.head?_eq_some_iff.1 (of_decide_eq_true h)
  rfl

theorem walk_filter_here (cs : List Component) (dir : List (List Char)) :
    walk ⟨cs.filter (· ≠ .here)⟩ dir = walk ⟨cs⟩ dir := by
  induction cs generalizing dir with
  | nil => rfl
  | cons c cs ih =>
    by_cases hc : c = .here
    · subst hc
      exact ih dir
    · rw [List.filter_cons_of_pos (by simpa using hc)]
      exact ih (step dir c)

/-- A path behind another one leads on from where that one leads. -/
theorem walk_join (p q : Path) (dir : List (List Char)) : (p.join q).walk dir = q.walk (p.walk dir) := by
  unfold join
  split
  · next h => exact walk_of_isAbsolute h _ _
  · rw [walk_mk_append, walk_filter_here]

end Path

/-- A reference leads from the directory of its document to where it says. -/
theorem Include.walk_resolve (document reference : Path) (dir : List (List Char)) :
    (resolve document reference).walk dir = reference.walk ((document.parent?.getD .empty).walk dir) := by
  rw [resolve, Path.walk_normalize, Path.walk_join]

namespace Path

/-- The shape of the normal form of a text: names behind the root if the text starts there, else behind some `..`. -/
theorem exists_normalize_ofString (s : String) :
    ∃ (k : Nat) (ns : List (List Char)), (∀ n ∈ ns, IsName n) ∧ (ofString s).normalize.parts =
      (if (ofString s).isAbsolute then [.root] else List.replicate k .up) ++ ns.map .name := by
  have names : ∀ n, .name n ∈ (ofString s).normalize.parts → IsName n := fun n hn =>
    isName_of_mem_ofString (mem_of_mem_normalize hn)
  rcases (isNormal_normalize (ofString s)).exists_names with ⟨ns, h⟩ | ⟨k, ns, h⟩
  · have absolute := isAbsolute_ofString_of_root (mem_of_mem_normalize (h ▸ List.mem_cons_self))
    refine ⟨0, ns, fun n hn => names n ?_, by rw [h, absolute]; rfl⟩
    rw [h]
    exact List.mem_cons_of_mem _ (List.mem_map_of_mem hn)
  · have relative : (ofString s).isAbsolute = false := by
      by_contra absolute
      have root := isAbsolute_normalize (List.mem_of_head? (of_decide_eq_true (Bool.not_eq_false _ ▸ absolute)))
      rw [isAbsolute, h] at root
      cases k <;> cases ns <;> simp [List.replicate_succ] at root
    refine ⟨k, ns, fun n hn => names n ?_, by rw [h, relative]; rfl⟩
    rw [h]
    exact List.mem_append_right _ (List.mem_map_of_mem hn)

/-- The normal form of a path has no `.`, no `..` behind the root, and otherwise `..` in front only; it is its own
normal form, also when it is written and read again; it leads from every directory to where the path leads; and paths
lead everywhere to the same place exactly if they have one normal form, so an absolute path and a relative one never
do. In particular a reference leads from the directory of its document to where it says. -/
theorem normalize_canonical (s : String) :
    (∃ (k : Nat) (ns : List (List Char)), (∀ n ∈ ns, IsName n) ∧ (ofString s).normalize.parts =
      (if (ofString s).isAbsolute then [.root] else List.replicate k .up) ++ ns.map .name) ∧
    ((ofString s).normalize.normalize = (ofString s).normalize ∧
      ofString (ofString s).normalize.text = (ofString s).normalize) ∧
    (∀ dir, (ofString s).normalize.walk dir = (ofString s).walk dir) ∧
    (∀ t : String, (∀ dir : List (List Char), (∀ n ∈ dir, IsName n) → (ofString s).walk dir = (ofString t).walk dir) ↔
      (ofString s).normalize = (ofString t).normalize) ∧
    ∀ (reference : String) (dir : List (List Char)),
      (Include.resolve (ofString s) (ofString reference)).walk dir = (ofString reference).walk
        (match (ofString s).parent? with
          | some parent => parent.walk dir
          | none => dir) := by
  refine ⟨exists_normalize_ofString s, ⟨normalize_normalize _, ?_⟩, walk_normalize _, fun t => samePlaces_iff _ _, ?_⟩
  · exact ofString_text (isNormal_normalize _) fun n hn => isName_of_mem_ofString (mem_of_mem_normalize hn)
  · intro reference dir
    rw [Include.walk_resolve]
    cases (ofString s).parent? <;> rfl

end Path

end Folio
