import Folio.CodeMeta.Scan
import Folio.Proofs.Text
import Mathlib.Data.List.Infix

/-!
# Where a scan of a meta string stands

Every place that a scan reaches is between two characters of the text (`Sound.step`), so no look and no cut fails. A
turn of the main loop takes one piece of the text and leaves the scan behind it (`turn_reads`). Hence the scan makes
way in every turn, ends, and finds what `parse` finds (`scan_parse`).
-/

namespace Folio

namespace Text

/-! ### Places of a text -/

theorem splitAt?_byteSize (front rest : List Char) :
    splitAt? (front ++ rest) (byteSize front) = some (front, rest) := by
  induction front with
  | nil => cases rest <;> rfl
  | cons c front ih =>
    obtain ⟨n, hn⟩ := Nat.exists_eq_succ_of_ne_zero c.utf8Size_pos.ne'
    have size : byteSize (c :: front) = n + byteSize front + 1 := by rw [byteSize, hn]; omega
    have left : n + byteSize front + 1 - (n + 1) = byteSize front := by omega
    rw [List.cons_append, size, splitAt?, hn, if_neg (by omega), left, ih]
    rfl

/-- A text is split between two of its characters, and nowhere else. -/
theorem splitAt?_eq_some_iff {s front rest : List Char} {n : Nat} :
    splitAt? s n = some (front, rest) ↔ s = front ++ rest ∧ byteSize front = n := by
  constructor
  · intro h
    fun_induction splitAt? s n generalizing front with
    | case1 s =>
      cases h
      exact ⟨rfl, rfl⟩
    | case2 => cases h
    | case3 => cases h
    | case4 c s n fits ih =>
      obtain ⟨⟨front, rest⟩, hs, ⟨⟩⟩ := Option.map_eq_some_iff.1 h
      obtain ⟨rfl, size⟩ := ih hs
      exact ⟨rfl, by rw [byteSize, size]; omega⟩
  · rintro ⟨rfl, rfl⟩
    exact splitAt?_byteSize front rest

/-- A place of a text, counted in bytes, has a given text behind it. -/
def At (s : List Char) (n : Nat) (rest : List Char) : Prop := ∃ front, s = front ++ rest ∧ byteSize front = n

theorem byteSize_ofList (s : List Char) : (String.ofList s).utf8ByteSize = byteSize s := by
  induction s with
  | nil => rfl
  | cons c s ih =>
    rw [String.ofList_cons, String.utf8ByteSize_append, String.utf8ByteSize_singleton, ih, byteSize]

namespace At

variable {s run rest : List Char} {n : Nat}

theorem zero (s : List Char) : At s 0 s := ⟨[], rfl, rfl⟩

theorem add (h : At s n (run ++ rest)) : At s (n + byteSize run) rest := by
  obtain ⟨front, rfl, rfl⟩ := h
  exact ⟨front ++ run, (List.append_assoc ..).symm, byteSize_append ..⟩

theorem past {c : Char} (h : At s n (c :: rest)) : At s (n + c.utf8Size) rest := by
  rw [← List.singleton_append] at h
  exact h.add

theorem dropWhile (p : Char → Bool) (h : At s n rest) : At s (n + byteSize (rest.takeWhile p)) (rest.dropWhile p) := by
  rw [← List.takeWhile_append_dropWhile (p := p) (l := rest)] at h
  exact h.add

theorem peek (h : At s n rest) : peek? s n = some rest.head? := by
  obtain ⟨front, rfl, rfl⟩ := h
  rw [peek?, splitAt?_byteSize]
  rfl

theorem look {α : Type} (h : At s n rest) (f : Option Char → α) : (peek? s n).map f = some (f rest.head?) := by
  rw [h.peek, Option.map_some]

theorem slice (h : At s n (run ++ rest)) : slice? s n (n + byteSize run) = some run := by
  obtain ⟨front, rfl, rfl⟩ := h
  rw [slice?, ← byteSize_append, ← List.append_assoc, splitAt?_byteSize]
  show (splitAt? (front ++ run) (byteSize front)).bind _ = _
  rw [splitAt?_byteSize]
  rfl

theorem unique {rest' : List Char} (h : At s n rest) (h' : At s n rest') : rest = rest' := by
  obtain ⟨front, hs, hn⟩ := h
  obtain ⟨front', hs', hn'⟩ := h'
  have same := (splitAt?_eq_some_iff.2 ⟨hs, hn⟩).symm.trans (splitAt?_eq_some_iff.2 ⟨hs', hn'⟩)
  cases same
  rfl

theorem size (h : At s n rest) : n + byteSize rest = byteSize s := by
  obtain ⟨front, rfl, rfl⟩ := h
  rw [byteSize_append]

end At

theorem peek?_eq_some_iff {s : List Char} {n : Nat} {next : Option Char} :
    peek? s n = some next ↔ ∃ rest, At s n rest ∧ rest.head? = next := by
  constructor
  · intro h
    obtain ⟨⟨front, rest⟩, split, next⟩ := Option.map_eq_some_iff.1 h
    exact ⟨rest, ⟨front, splitAt?_eq_some_iff.1 split⟩, next⟩
  · rintro ⟨rest, place, rfl⟩
    exact place.peek

/-- A look succeeds at the places that a string calls valid, and nowhere else. -/
theorem isSome_peek?_iff {s : List Char} {n : Nat} :
    (peek? s n).isSome ↔ (⟨n⟩ : String.Pos.Raw).IsValid (String.ofList s) := by
  rw [Option.isSome_iff_exists, String.Pos.Raw.isValid_iff_exists_append]
  constructor
  · rintro ⟨next, h⟩
    obtain ⟨rest, ⟨front, rfl, rfl⟩, -⟩ := peek?_eq_some_iff.1 h
    refine ⟨String.ofList front, String.ofList rest, String.ofList_append, ?_⟩
    rw [← byteSize_ofList]
    rfl
  · rintro ⟨front, rest, hs, hn⟩
    have texts : s = front.toList ++ rest.toList := by
      rw [← String.toList_append, ← hs, String.toList_ofList]
    have size : byteSize front.toList = n := by
      rw [← byteSize_ofList, String.ofList_toList]
      exact (congrArg String.Pos.Raw.byteIdx hn).symm
    exact ⟨_, At.peek ⟨front.toList, texts, size⟩⟩

end Text

open Text

namespace CodeMeta

/-! ### Tokens that are no entries -/

theorem utf8Size_of_closing? {c d : Char} (h : closing? c = some d) : c.utf8Size = 1 := by
  unfold closing? at h
  split at h <;> first | rfl | cases h

theorem upTo_append_drop (d : Char) (r : List Char) : upTo d r ++ r.drop (upTo d r).length = r := by
  induction r with
  | nil => rfl
  | cons c r ih =>
    rw [upTo]
    split
    · rfl
    · rw [List.length_cons, List.drop_succ_cons, List.cons_append, ih]

theorem foreignLength_pos {c : Char} (hc : isSeparator c = false) (r : List Char) : 1 ≤ foreignLength (c :: r) := by
  rw [foreignLength]
  cases hclose : closing? c with
  | none => simp [List.takeWhile_cons_of_pos, hc]
  | some d =>
    dsimp only
    omega

/-- A token that is no entry is what it begins with and what follows up to a separator. -/
theorem split_foreignLength {t run rest : List Char} (split : t = run ++ rest)
    (size : foreignLength t = run.length + (rest.takeWhile (!isSeparator ·)).length) :
    t.take (foreignLength t) = run ++ rest.takeWhile (!isSeparator ·) ∧
      t.drop (foreignLength t) = rest.dropWhile (!isSeparator ·) := by
  have whole : t = (run ++ rest.takeWhile (!isSeparator ·)) ++ rest.dropWhile (!isSeparator ·) := by
    rw [split, List.append_assoc, List.takeWhile_append_dropWhile]
  rw [size, ← List.length_append, whole]
  exact ⟨List.take_left, List.drop_left⟩

/-! ### Sound states -/

/-- Where the text starts that a scan is about to cut out. -/
def Phase.start? : Phase → Option Nat
  | .key n => some n
  | .bare _ n => some n
  | .enclosed n _ => some n
  | .tail n => some n
  | _ => none

/-- A scan stands between two characters, and what it is about to cut out lies between that place and an earlier
one. -/
structure Sound (s : List Char) (st : Scan) : Prop where
  place : ∃ rest, At s st.pos rest
  start : ∀ n ∈ st.phase.start?, ∃ run rest, At s n (run ++ rest) ∧ st.pos = n + byteSize run

/-- A step is taken to a sound state that is not before the one it starts from. -/
def Onward (s : List Char) (st : Scan) (next : Option Scan) : Prop :=
  ∃ st', next = some st' ∧ Sound s st' ∧ st.pos ≤ st'.pos

namespace Sound

variable {s rest : List Char} {st st' : Scan} {φ : Phase} {c : Char}

theorem initial (s : List Char) : Sound s Scan.start := ⟨⟨s, .zero s⟩, by rintro n ⟨⟩⟩

theorem onward (h : Sound s st') (le : st.pos ≤ st'.pos) : Onward s st (some st') := ⟨st', rfl, h, le⟩

/-- A place is all that is asked of a state that is not about to cut out anything. -/
theorem of_place (h : Sound s st) (free : st'.phase.start? = none) (same : st'.pos = st.pos) : Sound s st' :=
  ⟨same ▸ h.place, by rw [free]; rintro n ⟨⟩⟩

theorem free (h : Sound s st) (free : st'.phase.start? = none) (same : st'.pos = st.pos) : Onward s st (some st') :=
  onward (h.of_place free same) same.ge

/-- What is to be cut out may start here. -/
theorem enter_here (h : Sound s st) (here : φ.start? = some st.pos) : Onward s st (some (st.enter φ)) := by
  obtain ⟨rest, place⟩ := h.place
  refine onward ⟨⟨rest, place⟩, fun n hn => ⟨[], rest, ?_⟩⟩ (Nat.le_refl _)
  obtain rfl := Option.some.inj (here.symm.trans hn)
  exact ⟨place, rfl⟩

/-- What is to be cut out may go on. -/
theorem enter_on (h : Sound s st) (on : φ.start? = st.phase.start?) : Sound s (st.enter φ) :=
  ⟨h.place, fun n hn => h.start n (on ▸ hn)⟩

theorem past (h : Sound s st) (next : At s st.pos (c :: rest)) : Sound s (st.past c) := by
  refine ⟨⟨rest, next.past⟩, fun n hn => ?_⟩
  obtain ⟨run, rest', start, pos⟩ := h.start n hn
  obtain rfl := next.unique (pos ▸ start.add)
  refine ⟨run ++ [c], rest, by rwa [List.append_assoc], ?_⟩
  show st.pos + c.utf8Size = _
  rw [pos, byteSize_append, Nat.add_assoc]
  rfl

theorem pastByte (h : Sound s st) (next : At s st.pos (c :: rest)) (one : c.utf8Size = 1) : Sound s st.pastByte := by
  have same : st.pastByte = st.past c := by rw [Scan.pastByte, Scan.past, one]
  exact same ▸ h.past next

theorem reject (h : Sound s st) (e : MetaError) : Onward s st (some (st.reject e)) := by
  unfold Scan.reject
  split
  · exact h.free rfl rfl
  · exact h.free rfl rfl

/-- A cut from where the text to cut out starts succeeds. -/
theorem cut (h : Sound s st) {n : Nat} (start : st.phase.start? = some n) {f : List Char → Scan}
    (free : ∀ run, (f run).phase.start? = none ∧ (f run).pos = st.pos) :
    Onward s st ((slice? s n st.pos).map f) := by
  obtain ⟨run, rest, from_, pos⟩ := h.start n start
  rw [pos, from_.slice]
  exact h.free (free run).1 (free run).2

/-- A look succeeds. -/
theorem look (h : Sound s st) {f : Option Char → Scan} (atEnd : Onward s st (some (f none)))
    (atChar : ∀ c rest, At s st.pos (c :: rest) → Onward s st (some (f (some c)))) :
    Onward s st ((peek? s st.pos).map f) := by
  obtain ⟨rest, place⟩ := h.place
  rw [place.peek]
  cases rest with
  | nil => exact atEnd
  | cons c rest => exact atChar c rest place

theorem pass (h : Sound s st) {p : Char → Bool} {leave : Option Char → Option Scan}
    (atEnd : Onward s st (leave none)) (atChar : ∀ c rest, At s st.pos (c :: rest) → Onward s st (leave (some c))) :
    Onward s st (st.pass p s leave) := by
  obtain ⟨rest, place⟩ := h.place
  rw [Scan.pass, place.peek]
  cases rest with
  | nil => exact atEnd
  | cons c rest =>
    show Onward s st (if p c then _ else _)
    split
    · exact onward (h.past place) (Nat.le_add_right ..)
    · exact atChar c rest place

/-- Where the next character does not matter, a loop is left alike at the end and in front of a character. -/
theorem pass_const (h : Sound s st) {p : Char → Bool} {next : Option Scan} (leave : Onward s st next) :
    Onward s st (st.pass p s fun _ => next) :=
  h.pass leave fun _ _ _ => leave

theorem beginItem (h : Sound s st) : Onward s st (some (st.beginItem s)) := by
  unfold Scan.beginItem
  split
  · exact h.free rfl rfl
  · exact h.enter_here rfl

theorem takeKey? (h : Sound s st) {n : Nat} (start : st.phase.start? = some n) : Onward s st (st.takeKey? s n) := by
  unfold Scan.takeKey?
  split
  · exact h.cut start fun _ => ⟨rfl, rfl⟩
  · exact h.free rfl rfl

theorem beginValue (h : Sound s st) (key : String) (next : At s st.pos (c :: rest)) :
    Onward s st (some (st.beginValue key (some c))) := by
  unfold Scan.beginValue
  split
  · rename_i sign
    have one : c.utf8Size = 1 := by
      rcases sign with ⟨⟨⟩⟩ | ⟨⟨⟩⟩ <;> rfl
    exact onward ((h.pastByte next one).of_place rfl rfl) (Nat.le_add_right ..)
  · exact h.free rfl rfl

theorem readValue (h : Sound s st) (key : String) (next : At s st.pos (c :: rest)) :
    Onward s st (some (st.readValue key (some c))) := by
  unfold Scan.readValue
  dsimp only
  split_ifs with quote comma
  · have one : c.utf8Size = 1 := by
      rcases quote with rfl | rfl <;> rfl
    exact onward ((h.pastByte next one).of_place rfl rfl) (Nat.le_add_right ..)
  · exact h.reject _
  · exact h.enter_here rfl

theorem readQuoted (h : Sound s st) (key : String) (quote : Char) (text : List Char) (escaped : Bool)
    (next : At s st.pos (c :: rest)) : Onward s st (some (st.readQuoted key quote text escaped (some c))) := by
  have past : ∀ {st' : Scan}, st'.phase.start? = none → st'.pos = (st.past c).pos → Onward s st (some st') :=
    fun free same => onward ((h.past next).of_place free same) (same ▸ Nat.le_add_right ..)
  unfold Scan.readQuoted
  dsimp only
  split_ifs
  · exact past rfl rfl
  · exact past rfl rfl
  · exact past rfl rfl
  · exact past rfl rfl

theorem beginForeign (h : Sound s st) (next : At s st.pos (c :: rest)) :
    Onward s st (some (st.beginForeign (some c))) := by
  unfold Scan.beginForeign
  split
  · rename_i close closes
    have one := utf8Size_of_closing? closes
    refine onward ⟨(h.pastByte next one).place, fun n hn => ⟨[c], rest, ?_⟩⟩ (Nat.le_add_right ..)
    obtain rfl := Option.some.inj hn
    refine ⟨next, ?_⟩
    show st.pos + 1 = st.pos + (c.utf8Size + 0)
    rw [one]
  · exact h.enter_here rfl

theorem readEnclosed (h : Sound s st) {n : Nat} {close : Char} (start : st.phase.start? = some n)
    (next : At s st.pos (c :: rest)) : Onward s st (some (st.readEnclosed n close (some c))) := by
  unfold Scan.readEnclosed
  dsimp only
  split
  · exact onward ((h.past next).enter_on start.symm) (Nat.le_add_right ..)
  · exact onward (h.past next) (Nat.le_add_right ..)

/-- From a sound state every step can be taken, to a sound state that is not before it. -/
theorem step (h : Sound s st) : Onward s st (st.step s) := by
  unfold Scan.step
  cases hφ : st.phase with
  | turn => exact h.free rfl rfl
  | separators => exact h.pass_const h.beginItem
  | key n => exact h.pass_const (h.takeKey? (by rw [hφ]; rfl))
  | sign key => exact h.pass (h.free rfl rfl) fun _ _ next => h.beginValue key next
  | value key => exact h.pass (h.reject _) fun _ _ next => h.readValue key next
  | quoted key quote text escaped => exact h.look (h.reject _) fun _ _ next => h.readQuoted key quote text escaped next
  | bare key n => exact h.pass_const (h.cut (by rw [hφ]; rfl) fun _ => ⟨rfl, rfl⟩)
  | foreign => exact h.look (h.enter_here rfl) fun _ _ next => h.beginForeign next
  | enclosed n close =>
    have start : st.phase.start? = some n := by rw [hφ]; rfl
    exact h.look (onward (h.enter_on start.symm) (Nat.le_refl _)) fun _ _ next => h.readEnclosed start next
  | tail n => exact h.pass_const (h.cut (by rw [hφ]; rfl) fun _ => ⟨rfl, rfl⟩)
  | ended error => exact onward h (Nat.le_refl _)

/-- From a sound state any number of steps can be taken. -/
theorem steps (h : Sound s st) (n : Nat) : Onward s st (st.steps s n) := by
  induction n generalizing st with
  | zero => exact onward h (Nat.le_refl _)
  | succ n ih =>
    obtain ⟨st', step, sound, le⟩ := h.step
    obtain ⟨st'', steps, sound', le'⟩ := ih sound
    exact ⟨st'', by rw [Scan.steps, step]; exact steps, sound', le.trans le'⟩

end Sound

/-! ### Inside a turn -/

/-- Some steps lead from a state to another, and each of them is taken inside a turn. -/
inductive Leads (s : List Char) : Scan → Scan → Prop where
  | last {a b : Scan} (inside : a.phase.inTurn = true) (step : a.step s = some b) : Leads s a b
  | cons {a b c : Scan} (inside : a.phase.inTurn = true) (step : a.step s = some b) (h : Leads s b c) : Leads s a c

theorem Sound.of_step {s : List Char} {st st' : Scan} (h : Sound s st) (step : st.step s = some st') :
    Sound s st' ∧ st.pos ≤ st'.pos := by
  obtain ⟨x, hx, sound, le⟩ := h.step
  obtain rfl := Option.some.inj (step.symm.trans hx)
  exact ⟨sound, le⟩

theorem Sound.of_steps {s : List Char} {st st' : Scan} {n : Nat} (h : Sound s st) (steps : st.steps s n = some st') :
    Sound s st' ∧ st.pos ≤ st'.pos := by
  obtain ⟨x, hx, sound, le⟩ := h.steps n
  obtain rfl := Option.some.inj (steps.symm.trans hx)
  exact ⟨sound, le⟩

theorem steps_add (s : List Char) (m n : Nat) (st : Scan) :
    st.steps s (m + n) = (st.steps s m).bind (Scan.steps s n) := by
  induction m generalizing st with
  | zero =>
    rw [Nat.zero_add]
    rfl
  | succ m ih =>
    rw [Nat.add_right_comm, Scan.steps, Scan.steps]
    cases st.step s with
    | none => rfl
    | some st' => exact ih st'

namespace Leads

variable {s : List Char} {a b c : Scan}

theorem trans (h : Leads s a b) (h' : Leads s b c) : Leads s a c := by
  induction h with
  | last inside step => exact .cons inside step h'
  | cons inside step _ ih => exact .cons inside step (ih h')

/-- A state at which no turn is under way is reached no earlier than where the turn leads. -/
theorem pos_le (h : Leads s a b) (sound : Sound s a) {n : Nat} {x : Scan} (steps : a.steps s n = some x)
    (outside : x.phase.inTurn = false) : b.pos ≤ x.pos := by
  have moves {a : Scan} {n : Nat} (inside : a.phase.inTurn = true) (steps : a.steps s n = some x) : n ≠ 0 := by
    rintro rfl
    obtain rfl := Option.some.inj steps
    rw [inside] at outside
    cases outside
  induction h generalizing n with
  | last inside step =>
    obtain ⟨m, rfl⟩ := Nat.exists_eq_succ_of_ne_zero (moves inside steps)
    rw [Scan.steps, step] at steps
    exact ((sound.of_step step).1.of_steps steps).2
  | cons inside step _ ih =>
    obtain ⟨m, rfl⟩ := Nat.exists_eq_succ_of_ne_zero (moves inside steps)
    rw [Scan.steps, step] at steps
    exact ih (sound.of_step step).1 steps

end Leads

/-- A loop goes past the characters of its class and is left behind them. -/
theorem Leads.pass {s rest : List Char} {st b : Scan} {φ : Phase} (p : Char → Bool)
    (leave : Scan → Option Char → Option Scan) (inside : φ.inTurn = true)
    (loops : ∀ st : Scan, st.phase = φ → st.step s = st.pass p s (leave st)) (hφ : st.phase = φ)
    (place : At s st.pos rest)
    (leaves : leave { st with pos := st.pos + byteSize (rest.takeWhile p) } (rest.dropWhile p).head? = some b) :
    Leads s st b := by
  induction rest generalizing st with
  | nil =>
    refine .last (by rw [hφ, inside]) ?_
    rw [loops st hφ, Scan.pass, place.peek]
    exact leaves
  | cons c rest ih =>
    have look : st.step s = if p c then some (st.past c) else leave st (some c) := by
      rw [loops st hφ, Scan.pass, place.peek]
      rfl
    by_cases hc : p c = true
    · refine .cons (by rw [hφ, inside]) (look.trans (if_pos hc)) (ih hφ place.past ?_)
      rw [List.takeWhile_cons_of_pos hc, List.dropWhile_cons_of_pos hc, byteSize, ← Nat.add_assoc] at leaves
      exact leaves
    · refine .last (by rw [hφ, inside]) ?_
      rw [List.takeWhile_cons_of_neg hc, List.dropWhile_cons_of_neg hc] at leaves
      rw [look, if_neg hc]
      exact leaves

/-! ### Pieces -/

/-- What a piece of the text makes of a scan. -/
def Scan.settle (st : Scan) (pos : Nat) : Item → Scan
  | .entry key value => { st with pos := pos }.push key value
  | .foreign token => { st with pos := pos }.note ("skipping code meta token `" ++ token ++ "`")
  | .malformed e => { st with pos := pos }.reject e

/-- A scan settles a piece of the text, and stands in front of the rest. -/
def Reads (s : List Char) (st : Scan) (piece : Item × List Char) : Prop :=
  ∃ pos, At s pos piece.2 ∧ Leads s st (st.settle pos piece.1)

/-- A piece makes the same of two states that have found the same so far. -/
theorem settle_congr {st st' : Scan} (entries : st'.entries = st.entries) (log : st'.log = st.log) (pos : Nat)
    (i : Item) : st'.settle pos i = st.settle pos i := by
  obtain ⟨_, _, _, _⟩ := st
  obtain ⟨_, _, _, _⟩ := st'
  cases entries
  cases log
  cases i with
  | entry => rfl
  | foreign => rfl
  | malformed e =>
    simp only [Scan.settle, Scan.reject]
    split <;> rfl

namespace Reads

variable {s rest : List Char} {st st' : Scan} {piece : Item × List Char} {key : String}

theorem of_step (inside : st.phase.inTurn = true) (step : st.step s = some st') (entries : st'.entries = st.entries)
    (log : st'.log = st.log) (h : Reads s st' piece) : Reads s st piece := by
  obtain ⟨pos, place, leads⟩ := h
  exact ⟨pos, place, .cons inside step (settle_congr entries log pos _ ▸ leads)⟩

theorem of_leads (first : Leads s st st') (entries : st'.entries = st.entries) (log : st'.log = st.log)
    (h : Reads s st' piece) : Reads s st piece := by
  obtain ⟨pos, place, leads⟩ := h
  exact ⟨pos, place, first.trans (settle_congr entries log pos _ ▸ leads)⟩

/-- The rest of a token that is no entry ends at a separator. -/
theorem tail {n : Nat} (run : List Char) (hφ : st.phase = .tail n) (place : At s n (run ++ rest))
    (pos : st.pos = n + byteSize run) :
    Reads s st (.foreign (String.ofList (run ++ rest.takeWhile (!isSeparator ·))), rest.dropWhile (!isSeparator ·)) := by
  have here : At s st.pos rest := pos ▸ place.add
  refine ⟨_, here.dropWhile _, .pass (!isSeparator ·) (fun st _ => st.takeForeign? s n) rfl ?_ hφ here ?_⟩
  · intro st hφ
    rw [Scan.step, hφ]
  · have whole : At s n ((run ++ rest.takeWhile (!isSeparator ·)) ++ rest.dropWhile (!isSeparator ·)) := by
      rwa [List.append_assoc, List.takeWhile_append_dropWhile]
    have stop : st.pos + byteSize (rest.takeWhile (!isSeparator ·)) =
        n + byteSize (run ++ rest.takeWhile (!isSeparator ·)) := by
      rw [pos, byteSize_append, Nat.add_assoc]
    rw [Scan.takeForeign?]
    dsimp only
    rw [stop, whole.slice]
    rfl

theorem bare {n : Nat} (hφ : st.phase = .bare key n) (start : st.pos = n) (place : At s st.pos rest) :
    Reads s st (.entry key (some (String.ofList (rest.takeWhile (!isSeparator ·)))),
      rest.dropWhile (!isSeparator ·)) := by
  refine ⟨_, place.dropWhile _, .pass (!isSeparator ·) (fun st _ => st.takeBare? s key n) rfl ?_ hφ place ?_⟩
  · intro st hφ
    rw [Scan.step, hφ]
  · have whole : At s n (rest.takeWhile (!isSeparator ·) ++ rest.dropWhile (!isSeparator ·)) := by
      rwa [List.takeWhile_append_dropWhile, ← start]
    rw [Scan.takeBare?]
    dsimp only
    rw [start, whole.slice]
    rfl

/-- Quoted text is looked at step by step. -/
theorem quoted {quote : Char} (acc : List Char) (hφ : st.phase = .quoted key quote acc.reverse false)
    (place : At s st.pos rest) :
    Reads s st (match CodeMeta.readQuoted quote acc rest with
      | some (v, rest') => (.entry key (some (String.ofList v)), rest')
      | none => (.malformed (.unterminatedQuote key quote), [])) := by
  have inside {st : Scan} {text : List Char} {escaped : Bool} (hφ : st.phase = .quoted key quote text escaped) :
      st.phase.inTurn = true := by rw [hφ]; rfl
  have look {st : Scan} {rest text : List Char} {escaped : Bool} (hφ : st.phase = .quoted key quote text escaped)
      (place : At s st.pos rest) : st.step s = some (st.readQuoted key quote text escaped rest.head?) := by
    rw [Scan.step, hφ]
    exact place.look _
  -- A backslash is looked at on its own, and what it takes in the next step.
  have escape {st : Scan} {rest text : List Char} (hφ : st.phase = .quoted key quote text false)
      (place : At s st.pos ('\\' :: rest)) :
      st.step s = some ((st.past '\\').enter (.quoted key quote text true)) := by
    rw [look hφ place, List.head?_cons, Scan.readQuoted, if_neg Bool.false_ne_true, if_pos rfl]
  fun_induction CodeMeta.readQuoted quote acc rest generalizing st with
  | case1 acc => exact ⟨_, place, .last (inside hφ) (look hφ place)⟩
  | case2 acc =>
    have stops : ((st.past '\\').enter (.quoted key quote acc.reverse true)).step s =
        some (((st.past '\\').enter (.quoted key quote acc.reverse true)).reject (.unterminatedQuote key quote)) := by
      rw [look rfl place.past]
      rfl
    exact .of_step (inside hφ) (escape hφ place) rfl rfl ⟨_, place.past, .last rfl stops⟩
  | case3 acc d r ih =>
    have taken : ((st.past '\\').enter (.quoted key quote acc.reverse true)).step s =
        some (((st.past '\\').past d).enter (.quoted key quote (d :: acc).reverse false)) := by
      rw [look rfl place.past, List.head?_cons, Scan.readQuoted, List.reverse_cons]
      rfl
    exact .of_step (inside hφ) (escape hφ place) rfl rfl (.of_step rfl taken rfl rfl (ih rfl place.past.past))
  | case4 acc r hc =>
    have closes : st.step s = some ((st.past quote).push key (some (String.ofList acc.reverse))) := by
      rw [look hφ place, List.head?_cons, Scan.readQuoted, if_neg Bool.false_ne_true, if_neg hc, if_pos rfl]
    exact ⟨_, place.past, .last (inside hφ) closes⟩
  | case5 acc c r hc hq ih =>
    have plain : st.step s = some ((st.past c).enter (.quoted key quote (c :: acc).reverse false)) := by
      rw [look hφ place, List.head?_cons, Scan.readQuoted, if_neg Bool.false_ne_true, if_neg hc, if_neg hq,
        List.reverse_cons]
    exact .of_step (inside hφ) plain rfl rfl (ih rfl place.past)

/-- A value is read behind the white space behind a sign. -/
theorem value (hφ : st.phase = .value key) (place : At s st.pos rest) :
    Reads s st (CodeMeta.readValue key (rest.dropWhile isBlank)) := by
  have behind := place.dropWhile isBlank
  have leads {b : Scan} (leave : some b = some (Scan.readValue key
      { st with pos := st.pos + byteSize (rest.takeWhile isBlank) } (rest.dropWhile isBlank).head?)) : Leads s st b := by
    refine .pass isBlank (fun st next => some (st.readValue key next)) rfl (fun st hφ => ?_) hφ place leave.symm
    rw [Scan.step, hφ]
  generalize hn : st.pos + byteSize (rest.takeWhile isBlank) = n at *
  generalize hr : rest.dropWhile isBlank = r at *
  cases r with
  | nil => exact ⟨n, behind, leads rfl⟩
  | cons c r =>
    unfold CodeMeta.readValue
    simp only [Bool.or_eq_true, decide_eq_true_eq]
    split_ifs with hquote hcomma
    · have one : c.utf8Size = 1 := by
        rcases hquote with rfl | rfl <;> rfl
      have inside : At s (n + 1) r := one ▸ behind.past
      have opens : Leads s st (({ st with pos := n } : Scan).pastByte.enter (.quoted key c [] false)) := by
        refine leads ?_
        rw [List.head?_cons, Scan.readValue, if_pos hquote]
      exact .of_leads opens rfl rfl (quoted [] rfl inside)
    · refine ⟨n, behind, leads ?_⟩
      rw [List.head?_cons, Scan.readValue, if_neg hquote, if_pos hcomma]
      rfl
    · have starts : Leads s st (({ st with pos := n } : Scan).enter (.bare key n)) := by
        refine leads ?_
        rw [List.head?_cons, Scan.readValue, if_neg hquote, if_neg hcomma]
      exact .of_leads starts rfl rfl (bare rfl rfl behind)

/-- What is enclosed ends behind the character that closes it. -/
theorem leads_tail {n : Nat} {close : Char} (hφ : st.phase = .enclosed n close) (place : At s st.pos rest) :
    Leads s st { st with phase := .tail n, pos := st.pos + byteSize (upTo close rest) } := by
  induction rest generalizing st with
  | nil =>
    refine .last (by rw [hφ]; rfl) ?_
    rw [Scan.step, hφ]
    exact place.look _
  | cons c rest ih =>
    have look : st.step s = some (st.readEnclosed n close (some c)) := by
      rw [Scan.step, hφ]
      exact place.look _
    rw [Scan.readEnclosed] at look
    rw [upTo]
    split_ifs at look ⊢ with hc
    · exact .last (by rw [hφ]; rfl) look
    · refine .cons (by rw [hφ]; rfl) look ?_
      rw [byteSize, ← Nat.add_assoc]
      exact ih hφ place.past

theorem foreign {c : Char} {r : List Char} (hφ : st.phase = .foreign) (place : At s st.pos (c :: r)) :
    Reads s st (.foreign (String.ofList ((c :: r).take (foreignLength (c :: r)))),
      (c :: r).drop (foreignLength (c :: r))) := by
  have inside : st.phase.inTurn = true := by rw [hφ]; rfl
  have look : st.step s = some (st.beginForeign (some c)) := by
    rw [Scan.step, hφ]
    exact place.look _
  rw [Scan.beginForeign, Option.bind_some] at look
  cases hc : closing? c with
  | none =>
    have size : foreignLength (c :: r) = 0 + ((c :: r).takeWhile (!isSeparator ·)).length := by
      rw [foreignLength]
      simp only [hc]
      rfl
    have split : c :: r = [] ++ c :: r := rfl
    obtain ⟨taken, left⟩ := split_foreignLength split size
    rw [hc] at look
    rw [taken, left]
    exact .of_step inside look rfl rfl (tail [] rfl place rfl)
  | some d =>
    have one := utf8Size_of_closing? hc
    have split : c :: r = (c :: upTo d r) ++ r.drop (upTo d r).length := by
      rw [List.cons_append, upTo_append_drop]
    have size : foreignLength (c :: r) =
        (c :: upTo d r).length + ((r.drop (upTo d r).length).takeWhile (!isSeparator ·)).length := by
      rw [foreignLength]
      simp only [hc]
      rfl
    obtain ⟨taken, left⟩ := split_foreignLength split size
    rw [hc] at look
    rw [taken, left]
    have enclosed : At s (st.pos + 1) r := one ▸ place.past
    refine .of_step inside look rfl rfl (.of_leads (leads_tail rfl enclosed) rfl rfl ?_)
    refine tail (c :: upTo d r) rfl (split ▸ place) ?_
    show st.pos + 1 + byteSize (upTo d r) = st.pos + (c.utf8Size + byteSize (upTo d r))
    rw [one, Nat.add_assoc]

/-- Behind a key, a sign and a value follow the white space, or the key stands alone. -/
theorem sign (hφ : st.phase = .sign key) (place : At s st.pos rest) :
    Reads s st (match rest.dropWhile isBlank with
      | c :: r => if c = '=' || c = ':' then CodeMeta.readValue key (r.dropWhile isBlank) else (.entry key none, c :: r)
      | [] => (.entry key none, [])) := by
  have behind := place.dropWhile isBlank
  have leads {b : Scan} (leave : some b = some (Scan.beginValue key
      { st with pos := st.pos + byteSize (rest.takeWhile isBlank) } (rest.dropWhile isBlank).head?)) : Leads s st b := by
    refine .pass isBlank (fun st next => some (st.beginValue key next)) rfl (fun st hφ => ?_) hφ place leave.symm
    rw [Scan.step, hφ]
  generalize hn : st.pos + byteSize (rest.takeWhile isBlank) = n at *
  generalize hr : rest.dropWhile isBlank = r at *
  cases r with
  | nil => exact ⟨n, behind, leads rfl⟩
  | cons c r =>
    simp only [Bool.or_eq_true, decide_eq_true_eq]
    split_ifs with signs
    · have one : c.utf8Size = 1 := by
        rcases signs with rfl | rfl <;> rfl
      have valued : At s (n + 1) r := one ▸ behind.past
      have opens : Leads s st (({ st with pos := n } : Scan).pastByte.enter (.value key)) := by
        refine leads ?_
        rw [List.head?_cons, Scan.beginValue, if_pos (by simpa using signs)]
      exact .of_leads opens rfl rfl (value rfl valued)
    · refine ⟨n, behind, leads ?_⟩
      rw [List.head?_cons, Scan.beginValue, if_neg (by simpa using signs)]
      rfl

/-- A piece of the text is settled as it is read. -/
theorem item {c : Char} {r : List Char} (hφ : st.phase = .key st.pos) (place : At s st.pos (c :: r))
    (hc : isSeparator c = false) : Reads s st (readItem (c :: r)) := by
  have behind := place.dropWhile isKeyChar
  have leads {b : Scan} (leave : Scan.takeKey? s st.pos
      { st with pos := st.pos + byteSize ((c :: r).takeWhile isKeyChar) } = some b) : Leads s st b := by
    refine .pass isKeyChar (fun st' _ => st'.takeKey? s st.pos) rfl (fun st' hφ => ?_) hφ place leave
    rw [Scan.step, hφ]
  have split := List.takeWhile_append_dropWhile (p := isKeyChar) (l := c :: r)
  unfold readItem
  simp only
  generalize (c :: r).takeWhile isKeyChar = run at *
  generalize (c :: r).dropWhile isKeyChar = rest at *
  cases run with
  | nil =>
    have noKey : Leads s st (st.enter .foreign) := leads (if_neg (Nat.lt_irrefl _))
    rw [List.isEmpty_nil, if_pos rfl, Nat.max_eq_left (foreignLength_pos hc r)]
    exact .of_leads noKey rfl rfl (foreign rfl place)
  | cons k run =>
    have way : st.pos < st.pos + byteSize (k :: run) := by
      have := k.utf8Size_pos
      rw [byteSize]
      omega
    have cut : slice? s st.pos (st.pos + byteSize (k :: run)) = some (k :: run) := At.slice (split ▸ place)
    have keyed : Leads s st (({ st with pos := st.pos + byteSize (k :: run) } : Scan).enter
        (.sign (String.ofList (k :: run)))) := by
      refine leads ?_
      rw [Scan.takeKey?, if_pos way]
      dsimp only
      rw [cut]
      rfl
    exact .of_leads keyed rfl rfl (sign rfl behind)

end Reads

/-! ### Turns -/

section

variable {s rest : List Char} {st : Scan}

/-- A turn goes past the separators in front of it. -/
theorem turn_leads (place : At s st.pos rest) :
    Leads s (st.enter .separators)
      (Scan.beginItem s { st with pos := st.pos + byteSize (rest.takeWhile isSeparator) }) := by
  have loops (st : Scan) (hφ : st.phase = .separators) :
      st.step s = st.pass isSeparator s fun _ => some (st.beginItem s) := by rw [Scan.step, hφ]
  exact .pass isSeparator _ rfl loops rfl place rfl

/-- Where only separators are left, a turn ends the scan. -/
theorem turn_ends (place : At s st.pos rest) (empty : rest.dropWhile isSeparator = []) :
    Leads s (st.enter .separators) (({ st with pos := byteSize s } : Scan).enter (.ended none)) := by
  have behind := place.dropWhile isSeparator
  have leads := turn_leads place
  rw [empty] at behind
  rwa [show st.pos + byteSize (rest.takeWhile isSeparator) = byteSize s from behind.size, Scan.beginItem,
    if_pos (Nat.le_refl _)] at leads

/-- Otherwise a turn settles the piece behind the separators. -/
theorem turn_reads (place : At s st.pos rest) (more : rest.dropWhile isSeparator ≠ []) :
    Reads s (st.enter .separators) (readItem (rest.dropWhile isSeparator)) := by
  have behind := place.dropWhile isSeparator
  have leads := turn_leads place
  have apart := List.head_dropWhile_not isSeparator more
  obtain ⟨c, r, left⟩ := List.exists_cons_of_ne_nil more
  simp only [left, List.head_cons] at apart
  rw [left] at behind ⊢
  have inside : ¬ byteSize s ≤ st.pos + byteSize (rest.takeWhile isSeparator) := by
    have := behind.size
    have := c.utf8Size_pos
    rw [byteSize] at *
    omega
  rw [Scan.beginItem, if_neg inside] at leads
  exact .of_leads leads rfl rfl (.item rfl behind apart)

theorem settle_pos (pos : Nat) (i : Item) : (st.settle pos i).pos = pos := by
  cases i with
  | entry => rfl
  | foreign => rfl
  | malformed e =>
    rw [Scan.settle, Scan.reject]
    split <;> rfl

/-- At the end of the text a turn ends the scan. -/
theorem turn_at_end (hφ : st.phase = .turn) (place : At s st.pos []) :
    st.steps s 2 = some (st.enter (.ended none)) := by
  have first : st.step s = some (st.enter .separators) := by rw [Scan.step, hφ]
  have second : (st.enter .separators).step s = some ((st.enter .separators).beginItem s) := by
    rw [Scan.step, Scan.pass]
    show (peek? s st.pos).bind _ = _
    rw [place.peek]
    rfl
  have done : byteSize s ≤ st.pos := place.size.ge
  rw [Scan.steps, first, Option.bind_some, Scan.steps, second, Scan.beginItem]
  exact congrArg some (if_pos done)

/-- A place with less of the text behind it lies behind the whole character at the other place. -/
theorem past_le {c : Char} {r rest' : List Char} {m n : Nat} (h : At s m (c :: r)) (h' : At s n rest')
    (less : rest'.length ≤ r.length) : m + c.utf8Size ≤ n := by
  have size := h.past.size
  have size' := h'.size
  obtain ⟨front, hs, -⟩ := h.past
  obtain ⟨front', hs', -⟩ := h'
  have suffix : rest' <:+ r := List.suffix_of_suffix_length_le ⟨front', hs'.symm⟩ ⟨front, hs.symm⟩ less
  obtain ⟨t, rfl⟩ := suffix
  rw [byteSize_append] at size
  omega

/-- When a turn is over, the scan stands behind the whole character in front of which the turn began. -/
theorem turn_progress {c : Char} {r : List Char} {n : Nat} {st' : Scan} (sound : Sound s st) (hφ : st.phase = .turn)
    (place : At s st.pos (c :: r)) (steps : st.steps s (n + 1) = some st') (outside : st'.phase.inTurn = false) :
    st.pos + c.utf8Size ≤ st'.pos := by
  have step : st.step s = some (st.enter .separators) := by rw [Scan.step, hφ]
  rw [Scan.steps, step] at steps
  have begun := (sound.of_step step).1
  by_cases empty : (c :: r).dropWhile isSeparator = []
  · have le := (turn_ends place empty).pos_le begun steps outside
    have end_le : st.pos + c.utf8Size ≤ byteSize s := place.past.size ▸ Nat.le_add_right ..
    exact end_le.trans le
  · obtain ⟨pos, place', leads⟩ := turn_reads place empty
    have le := leads.pos_le begun steps outside
    rw [settle_pos] at le
    have less := readItem_length empty
    have shorter := (List.dropWhile_sublist isSeparator (l := c :: r)).length_le
    rw [List.length_cons] at shorter
    exact (past_le place place' (by omega)).trans le

end

/-! ### The whole scan -/

/-- A scan ends with an outcome. -/
def Finds (s : List Char) (st : Scan) (r : Logged (Except MetaError CodeMeta)) : Prop :=
  ∃ n st', st.steps s n = some st' ∧ st'.outcome? = some r

/-- What a scan says that has found something already, and finds the given result in the rest of the text. -/
def Scan.found (st : Scan) (r : Logged (Except MetaError (List (String × Option String)))) :
    Logged (Except MetaError CodeMeta) :=
  ⟨r.value.map fun es => ⟨st.entries ++ es⟩, st.log ++ r.log⟩

namespace Finds

variable {s rest : List Char} {st st' : Scan} {r : Logged (Except MetaError CodeMeta)}

theorem of_step (step : st.step s = some st') (h : Finds s st' r) : Finds s st r := by
  obtain ⟨n, x, steps, outcome⟩ := h
  exact ⟨n + 1, x, by rw [Scan.steps, step]; exact steps, outcome⟩

theorem of_leads (leads : Leads s st st') (h : Finds s st' r) : Finds s st r := by
  induction leads with
  | last _ step => exact h.of_step step
  | cons _ step _ ih => exact (ih h).of_step step

end Finds

/-- What is collected from the first piece on is what its turn leaves, and what is collected from there on. -/
theorem finds_settle {s : List Char} {st : Scan} {pos : Nat} {i : Item} {is : List Item}
    (goesOn : ∀ {st' : Scan}, st'.phase = .turn → st'.pos = pos → Finds s st' (st'.found (collect is))) :
    Finds s (st.settle pos i) (st.found (collect (i :: is))) := by
  cases i with
  | entry key value =>
    have same : st.found (collect (.entry key value :: is)) = (st.settle pos (.entry key value)).found (collect is) := by
      simp only [Scan.found, Scan.settle, Scan.push, collect, Logged.value_bind, Logged.log_bind, Logged.value_pure,
        Logged.log_pure, List.append_nil]
      cases (collect is).value with
      | error => rfl
      | ok es => simp [Except.map]
    exact same ▸ goesOn rfl rfl
  | foreign token =>
    have same : st.found (collect (.foreign token :: is)) = (st.settle pos (.foreign token)).found (collect is) := by
      simp only [Scan.found, Scan.settle, Scan.note, collect, Logged.value_bind, Logged.log_bind, List.append_assoc]
      rfl
    exact same ▸ goesOn rfl rfl
  | malformed e =>
    by_cases strict : e.key = strictKey
    · refine ⟨0, _, rfl, ?_⟩
      rw [Scan.settle, Scan.reject, if_pos strict, collect, if_pos strict]
      simp [Scan.outcome?, Scan.enter, Scan.found, Except.map]
    · have settled : st.settle pos (.malformed e) =
          ({ st with pos := pos } : Scan).note ("skipping code meta entry: " ++ e.message) := if_neg strict
      have same : st.found (collect (.malformed e :: is)) = (st.settle pos (.malformed e)).found (collect is) := by
        rw [collect, if_neg strict, settled]
        simp only [Scan.found, Scan.note, Logged.value_bind, Logged.log_bind, List.append_assoc]
        rfl
      rw [same, settled]
      exact goesOn rfl rfl

theorem finds {s rest : List Char} {st : Scan} (hφ : st.phase = .turn) (place : At s st.pos rest) :
    Finds s st (st.found (collect (items rest))) := by
  have step {st : Scan} (hφ : st.phase = .turn) : st.step s = some (st.enter .separators) := by rw [Scan.step, hφ]
  induction rest using items.induct generalizing st with
  | case1 rest t =>
    rename_i empty
    have none : items rest = [] := by rw [items, dif_pos empty]
    refine .of_step (step hφ) (.of_leads (turn_ends place empty) ⟨0, _, rfl, ?_⟩)
    rw [none]
    simp [Scan.outcome?, Scan.enter, Scan.found, collect, Except.map]
  | case2 rest t more =>
    rename_i ih
    have some : items rest = (readItem t).1 :: items (readItem t).2 := by rw [items, dif_neg more]
    obtain ⟨pos, place', leads⟩ := turn_reads place more
    refine .of_step (step hφ) (.of_leads leads ?_)
    rw [some]
    exact finds_settle fun hφ pos => ih hφ (pos ▸ place')

/-- Only an entry of the strict key is an error. -/
theorem key_of_collect {is : List Item} {e : MetaError} (h : (collect is).value = .error e) : e.key = strictKey := by
  induction is with
  | nil => cases h
  | cons i is ih =>
    cases i with
    | entry key value =>
      rw [collect, Logged.value_bind, Logged.value_pure] at h
      cases found : (collect is).value with
      | ok => rw [found] at h; cases h
      | error e' =>
        rw [found] at h
        cases h
        exact ih found
    | foreign => exact ih h
    | malformed e' =>
      rw [collect] at h
      split at h
      · cases h
        assumption
      · exact ih h

theorem found_start (input : String) : Scan.start.found (collect (items (body input))) = parse input := by
  show Logged.mk _ ([] ++ _) = Logged.mk _ (_ ++ [])
  rw [List.nil_append, List.append_nil]
  rfl

/-- However many steps a scan has taken, it stands between two characters of the text. When a turn of the main loop is
over, the scan stands behind the whole character in front of which that turn began; a turn that begins at the end of
the text ends the scan. Every scan ends, and says what `parse` says, where only an entry of the file is an error. -/
theorem scan_parse (input : String) :
    (∀ n, ∃ st, after (body input) n = some st ∧ (⟨st.pos⟩ : String.Pos.Raw).IsValid (String.ofList (body input))) ∧
      (∀ n st, after (body input) n = some st → st.phase = .turn →
        (∀ c, peek? (body input) st.pos = some (some c) → ∀ m st', n < m → after (body input) m = some st' →
          st'.phase.inTurn = false → st.pos + c.utf8Size ≤ st'.pos) ∧
        (peek? (body input) st.pos = some none → after (body input) (n + 2) = some (st.enter (.ended none)))) ∧
      (∃ n st, after (body input) n = some st ∧ st.outcome? = some (parse input)) ∧
      ∀ e, (parse input).value = .error e → e.key = "file" := by
  refine ⟨fun n => ?_, fun n st reached hφ => ?_, ?_, fun e failed => ?_⟩
  · obtain ⟨st, steps, sound, -⟩ := (Sound.initial (body input)).steps n
    obtain ⟨rest, place⟩ := sound.place
    exact ⟨st, steps, isSome_peek?_iff.1 (Option.isSome_iff_exists.2 ⟨_, place.peek⟩)⟩
  · have sound := ((Sound.initial (body input)).of_steps reached).1
    have on (k : Nat) : after (body input) (n + k) = st.steps (body input) k := by
      rw [after, steps_add, show Scan.start.steps (body input) n = some st from reached]
      rfl
    refine ⟨fun c next m st' later reached' outside => ?_, fun next => ?_⟩
    · obtain ⟨k, rfl⟩ := Nat.exists_eq_add_of_lt later
      obtain ⟨rest, place, head⟩ := peek?_eq_some_iff.1 next
      obtain ⟨r, rfl⟩ := List.head?_eq_some_iff.1 head
      rw [Nat.add_assoc, on] at reached'
      exact turn_progress sound hφ place reached' outside
    · obtain ⟨rest, place, head⟩ := peek?_eq_some_iff.1 next
      obtain rfl := List.head?_eq_none_iff.1 head
      rw [on]
      exact turn_at_end hφ place
  · have found : Finds (body input) .start (Scan.start.found (collect (items (body input)))) := finds rfl (.zero _)
    rwa [found_start] at found
  · have same : (parse input).value = (collect (items (body input))).value.map CodeMeta.mk := rfl
    cases found : (collect (items (body input))).value with
    | ok =>
      rw [same, found] at failed
      cases failed
    | error =>
      rw [same, found] at failed
      cases failed
      exact key_of_collect found

/-- A quote that is never closed takes the rest of the text, whose characters take more than one byte; the entry is
dropped. -/
example : (after "é='ü".toList 12).map (fun st => (st.pos, st.entries, st.phase)) = some (6, [], .ended none) := by
  decide +kernel

end CodeMeta

end Folio
