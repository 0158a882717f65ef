import Folio.Path
import Mathlib.Data.List.Infix

/-!
# Normal forms of paths

A normal form leads to the same place as its path (`walk_normalize`). It is a list of names behind the root, or behind
some `..` (`isNormal_normalize`), so what stands behind an initial part of a normal form that ends in the root or a name
are names, and they lead further into the directory of that part.
-/

namespace Folio.Path

/-! ### Walking -/

theorem walk_mk_append (a b : List Component) (dir : List (List Char)) :
    walk ⟨a ++ b⟩ dir = walk ⟨b⟩ (walk ⟨a⟩ dir) := by
  simp [walk]

theorem walk_names (ns dir : List (List Char)) : walk ⟨ns.map .name⟩ dir = dir ++ ns := by
  induction ns generalizing dir with
  | nil => simp [walk]
  | cons n ns ih =>
    show walk ⟨ns.map .name⟩ (dir ++ [n]) = _
    rw [ih]
    simp

theorem walk_replicate_up (k : Nat) (dir : List (List Char)) :
    walk ⟨List.replicate k .up⟩ dir = dir.take (dir.length - k) := by
  induction k generalizing dir with
  | zero => simp [walk]
  | succ k ih =>
    show walk ⟨List.replicate k .up⟩ dir.dropLast = _
    rw [ih, List.dropLast_eq_take, List.take_take, List.length_take]
    congr 1
    omega

/-- A component is added to a normal form as it is walked. -/
theorem walk_push (done : List Component) (c : Component) (dir : List (List Char)) :
    walk ⟨(push done c).reverse⟩ dir = step (walk ⟨done.reverse⟩ dir) c := by
  cases c with
  | root => simp [push, walk, step]
  | here => simp [push, step]
  | name s => simp [push, walk, step]
  | up =>
    match done with
    | [] | .here :: _ | .up :: _ => simp [push, walk, step]
    | .root :: _ => simp [push, walk, step]
    | .name s :: rest => simp [push, walk, step]

theorem walk_foldl_push (cs done : List Component) (dir : List (List Char)) :
    walk ⟨(cs.foldl push done).reverse⟩ dir = cs.foldl step (walk ⟨done.reverse⟩ dir) := by
  induction cs generalizing done with
  | nil => rfl
  | cons c cs ih => rw [List.foldl_cons, ih, walk_push, List.foldl_cons]

/-- A path and its normal form lead to the same place. -/
theorem walk_normalize (p : Path) (dir : List (List Char)) : p.normalize.walk dir = p.walk dir :=
  walk_foldl_push p.parts [] dir

/-! ### The shape of normal forms -/

/-- May a component of a normal form stand in front of another one? Anything stands in front of a name, and only `..`
in front of `..`. -/
def Leads (a b : Component) : Prop := (∃ s, b = .name s) ∨ a = .up ∧ b = .up

/-- Names behind the root, or behind some `..`. -/
structure IsNormal (cs : List Component) : Prop where
  here : .here ∉ cs
  leads : cs.Pairwise Leads

namespace IsNormal

variable {cs : List Component}

theorem singleton {c : Component} (h : c ≠ .here) : IsNormal [c] :=
  ⟨by simpa using h.symm, List.pairwise_singleton ..⟩

theorem append_name (h : IsNormal cs) (s : List Char) : IsNormal (cs ++ [.name s]) := by
  refine ⟨by simpa using h.here, List.pairwise_append.2 ⟨h.leads, List.pairwise_singleton .., ?_⟩⟩
  rintro a - b hb
  exact .inl ⟨s, List.mem_singleton.1 hb⟩

theorem of_append {ds : List Component} (h : IsNormal (cs ++ ds)) : IsNormal cs :=
  ⟨fun hc => h.here (List.mem_append_left _ hc), (List.pairwise_append.1 h.leads).1⟩

/-- Behind a `..` of a normal form may come another one. -/
theorem append_up_up (h : IsNormal (cs ++ [.up])) : IsNormal (cs ++ [.up] ++ [.up]) := by
  refine ⟨by simpa using h.here, List.pairwise_append.2 ⟨h.leads, List.pairwise_singleton .., ?_⟩⟩
  intro a ha b hb
  obtain rfl := List.mem_singleton.1 hb
  refine .inr ⟨?_, rfl⟩
  rcases List.mem_append.1 ha with ha | ha
  · rcases (List.pairwise_append.1 h.leads).2.2 a ha .up (by simp) with ⟨s, hs⟩ | ⟨ha, -⟩
    · cases hs
    · exact ha
  · exact List.mem_singleton.1 ha

theorem push {done : List Component} (h : IsNormal done.reverse) (c : Component) :
    IsNormal (Path.push done c).reverse := by
  cases c with
  | root => exact singleton (by simp)
  | here => exact h
  | name s =>
    rw [Path.push, List.reverse_cons]
    exact h.append_name s
  | up =>
    match done, h with
    | [], _ => exact singleton (by simp)
    | .root :: _, h => exact h
    | .here :: _, h => exact absurd (by simp) h.here
    | .up :: ds, h =>
      rw [Path.push, List.reverse_cons, List.reverse_cons]
      · exact append_up_up (by simpa using h)
      · simp
      · simp
    | .name s :: ds, h =>
      rw [List.reverse_cons] at h
      exact h.of_append

end IsNormal

theorem isNormal_normalize (p : Path) : IsNormal p.normalize.parts := by
  suffices h : ∀ (cs done : List Component), IsNormal done.reverse → IsNormal (cs.foldl push done).reverse from
    h p.parts [] ⟨List.not_mem_nil, .nil⟩
  intro cs
  induction cs with
  | nil => exact fun _ h => h
  | cons c cs ih => exact fun done h => ih _ (h.push c)

theorem getLast?_push {done : List Component} (h : done.getLast? = some .root) (c : Component) :
    (push done c).getLast? = some .root := by
  cases c with
  | root => rfl
  | here => exact h
  | name s =>
    cases done with
    | nil => cases h
    | cons d ds => simpa [push, List.getLast?_cons_cons] using h
  | up =>
    match done, h with
    | .root :: _, h => exact h
    | .here :: ds, h | .up :: ds, h => simpa [push, List.getLast?_cons_cons] using h
    | .name s :: [], h => simp at h
    | .name s :: d :: ds, h => simpa [push, List.getLast?_cons_cons] using h

/-- The normal form of a path with a root is absolute. -/
theorem isAbsolute_normalize {p : Path} (h : .root ∈ p.parts) : p.normalize.isAbsolute = true := by
  suffices hs : ∀ (cs done : List Component), .root ∈ cs ∨ done.getLast? = some .root →
      (cs.foldl push done).getLast? = some .root by
    simpa [isAbsolute, normalize, List.head?_reverse] using hs p.parts [] (.inl h)
  intro cs
  induction cs with
  | nil =>
    rintro done (h | h)
    · cases h
    · exact h
  | cons c cs ih =>
    rintro done (h | h)
    · rcases List.mem_cons.1 h with rfl | h
      · exact ih _ (.inr rfl)
      · exact ih _ (.inl h)
    · exact ih _ (.inr (getLast?_push h c))

/-- Behind an initial part of a normal form that is not made of `..` stand names, which lead further into the
directory of that part. -/
theorem walk_isPrefix_walk {r p : Path} (hp : IsNormal p.parts) (h : p.startsWith r = true)
    (hr : ∃ c ∈ r.parts, c ≠ .up) (dir : List (List Char)) : r.walk dir <+: p.walk dir := by
  obtain ⟨cs, hcs⟩ := List.isPrefixOf_iff_prefix.1 h
  obtain ⟨c, hc, hup⟩ := hr
  have hnames : ∀ b ∈ cs, ∃ s, b = .name s := by
    intro b hb
    have hl := hp.leads
    rw [← hcs] at hl
    rcases (List.pairwise_append.1 hl).2.2 c hc b hb with hs | ⟨hcu, -⟩
    · exact hs
    · exact absurd hcu hup
  obtain ⟨ns, rfl⟩ : ∃ ns : List (List Char), cs = ns.map .name := by
    clear hcs
    induction cs with
    | nil => exact ⟨[], rfl⟩
    | cons b cs ih =>
      obtain ⟨s, rfl⟩ := hnames b (by simp)
      obtain ⟨ns, rfl⟩ := ih fun b hb => hnames b (List.mem_cons_of_mem _ hb)
      exact ⟨s :: ns, rfl⟩
  have hw := walk_mk_append r.parts (ns.map .name) dir
  rw [hcs, walk_names] at hw
  exact ⟨ns, hw.symm⟩

end Folio.Path
