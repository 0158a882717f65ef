import Folio.Frontmatter
import Folio.Proofs.Calendar

/-!
# Metadata is read as it is written

The fields of a post, written as a map, read back as they were (`reads_back_and_timestamp`); only a number that is not
finite has no written form and gets lost. A timestamp in place of the date leaves the other fields alone and gives the
date that is written in it, in whatever time zone that is.
-/

namespace Folio

open Text

namespace Value

theorem get?_cons (key name : String) (v : Value) (es : List (String × Value)) :
    get? key ((name, v) :: es) = if key = name then some v else get? key es := by
  rw [get?, List.lookup_cons]
  by_cases h : key = name
  · rw [if_pos h, beq_iff_eq.2 h]
  · rw [if_neg h, beq_eq_false_iff_ne.2 h, get?]

theorem get?_insert (key name : String) (v : Value) (es : List (String × Value)) :
    get? key (insert name v es) = if key = name then some v else get? key es := by
  induction es with
  | nil => rw [insert, get?_cons]
  | cons e es ih =>
    obtain ⟨n, w⟩ := e
    rw [insert]
    split
    · rename_i same
      rw [get?_cons, get?_cons, same]
      split <;> rfl
    · rename_i other
      rw [get?_cons, get?_cons, ih]
      by_cases h : key = n
      · rw [if_pos h, if_neg (h ▸ other), if_pos h]
      · rw [if_neg h, if_neg h]

end Value

namespace Frontmatter

variable {es : List (String × Value)} {f : Frontmatter}

theorem bind_eq_ok_iff {ε α β : Type} {x : Except ε α} {k : α → Except ε β} {b : β} :
    x >>= k = .ok b ↔ ∃ a, x = .ok a ∧ k a = .ok b := by
  cases x <;> simp [bind, Except.bind]

theorem required_eq_ok_iff {α : Type} {name : String} {o : Option α} {a : α} :
    required name o = .ok a ↔ o = some a := by
  cases o <;> simp [required]

/-- A map is read if all fields are that it has, and it has those that it must have. -/
theorem readFields_map_eq_ok_iff :
    readFields (.map es) = .ok f ↔
      (∃ draft, entry es "draft" (optionally boolField) = .ok draft ∧ draft.join = f.draft) ∧
      (∃ estimation, entry es "estimation" (optionally readingTimeField) = .ok estimation ∧
        estimation.join = f.estimation) ∧
      entry es "pubDate" dateField = .ok (some f.pubDate) ∧
      entry es "summary" textField = .ok (some f.summary) ∧
      entry es "title" textField = .ok (some f.title) := by
  simp only [readFields, bind_eq_ok_iff, required_eq_ok_iff]
  constructor
  · rintro ⟨draft, hdraft, estimation, hestimation, pubDate, hpubDate, summary, hsummary, title, htitle, _, rfl, _, rfl,
      _, rfl, ⟨⟩⟩
    exact ⟨⟨draft, hdraft, rfl⟩, ⟨estimation, hestimation, rfl⟩, hpubDate, hsummary, htitle⟩
  · rintro ⟨⟨draft, hdraft, eq_draft⟩, ⟨estimation, hestimation, eq_estimation⟩, hpubDate, hsummary, htitle⟩
    refine ⟨draft, hdraft, estimation, hestimation, _, hpubDate, _, hsummary, _, htitle, _, rfl, _, rfl, _, rfl, ?_⟩
    rw [eq_draft, eq_estimation]

theorem ofValue_eq_ok_iff {v : Value} : ofValue v = .ok f ↔ readFields v = .ok f := by
  unfold ofValue
  split <;> simp_all

/-! ### The date -/

theorem dateField_text (d : Date) : dateField (.text d.text) = .ok d := by
  simp only [dateField, textField, bind, Except.bind, d.trim_text, d.read_text]

theorem dateField_timestamp (t : Timestamp) : dateField (.text (String.ofList t.text)) = .ok t.date := by
  simp only [dateField, textField, bind, Except.bind, String.toList_ofList, t.trim_text, t.read_text]

theorem entry_eq_ok_some_iff {α : Type} {name : String} {read : Value → Except SchemaError α} {a : α} :
    entry es name read = .ok (some a) ↔ ∃ v, Value.get? name es = some v ∧ read v = .ok a := by
  unfold entry
  cases Value.get? name es with
  | none => simp
  | some v => cases h : read v <;> simp [h, Except.map]

theorem entry_insert_self {α : Type} {name : String} {v : Value} {read : Value → Except SchemaError α} {a : α}
    (h : read v = .ok a) : entry (Value.insert name v es) name read = .ok (some a) := by
  exact entry_eq_ok_some_iff.2 ⟨v, by rw [Value.get?_insert, if_pos rfl], h⟩

theorem entry_insert_of_ne {α : Type} {key name : String} {v : Value} {read : Value → Except SchemaError α}
    (h : key ≠ name) : entry (Value.insert name v es) key read = entry es key read := by
  rw [entry, Value.get?_insert, if_neg h, entry]

/-- Another date changes the date and nothing else. -/
theorem ofValue_insert_pubDate {v : Value} {d : Date} (h : ofValue (.map es) = .ok f) (date : dateField v = .ok d) :
    ofValue (.map (Value.insert "pubDate" v es)) = .ok { f with pubDate := d } := by
  rw [ofValue_eq_ok_iff, readFields_map_eq_ok_iff] at h ⊢
  obtain ⟨draft, estimation, -, summary, title⟩ := h
  refine ⟨?_, ?_, entry_insert_self date, ?_, ?_⟩
  all_goals rwa [entry_insert_of_ne (by decide)]

/-! ### All fields -/

theorem floatField_floatValue_eq_ok_iff {x y : Float} :
    floatField (floatValue x) = .ok y ↔ x.isFinite = true ∧ x = y := by
  unfold floatValue
  split <;> simp_all [floatField]

theorem readingTimeField_map_eq_ok_iff {t : ReadingTime} :
    readingTimeField (.map es) = .ok t ↔
      entry es "minutes" floatField = .ok (some t.minutes) ∧ entry es "text" textField = .ok (some t.text) ∧
      entry es "time" floatField = .ok (some t.time) ∧ entry es "words" countField = .ok (some t.words) := by
  simp only [readingTimeField, bind_eq_ok_iff, required_eq_ok_iff]
  constructor
  · rintro ⟨minutes, hminutes, text, htext, time, htime, words, hwords, _, rfl, _, rfl, _, rfl, _, rfl, ⟨⟩⟩
    exact ⟨hminutes, htext, htime, hwords⟩
  · rintro ⟨hminutes, htext, htime, hwords⟩
    exact ⟨_, hminutes, _, htext, _, htime, _, hwords, _, rfl, _, rfl, _, rfl, _, rfl, rfl⟩

theorem readingTimeField_readingTimeValue_eq_ok_iff {t u : ReadingTime} :
    readingTimeField (readingTimeValue t) = .ok u ↔ t.minutes.isFinite = true ∧ t.time.isFinite = true ∧ t = u := by
  rw [readingTimeValue, readingTimeField_map_eq_ok_iff]
  cases t; cases u
  have count (n : Nat) : countField (.int n) = .ok n := rfl
  simp only [entry_eq_ok_some_iff, Value.get?_cons, String.reduceEq, if_true, if_false, Option.some.injEq,
    exists_eq_left', floatField_floatValue_eq_ok_iff, textField, count, Except.ok.injEq, ReadingTime.mk.injEq]
  exact ⟨fun ⟨⟨a, b⟩, c, ⟨d, e⟩, g⟩ => ⟨a, d, c, b, e, g⟩, fun ⟨a, d, c, b, e, g⟩ => ⟨⟨a, b⟩, c, ⟨d, e⟩, g⟩⟩

/-- The numbers of the reading time, if there is one, are finite. -/
def HasFiniteNumbers (f : Frontmatter) : Prop :=
  ∀ t ∈ f.estimation, t.minutes.isFinite = true ∧ t.time.isFinite = true

/-- The entries of the map that is written. -/
def fields (f : Frontmatter) : List (String × Value) :=
  [("title", .text f.title), ("pubDate", .text f.pubDate.text), ("summary", .text f.summary)] ++
    (f.draft.map fun b => ("draft", .bool b)).toList ++
    (f.estimation.map fun t => ("estimation", readingTimeValue t)).toList

theorem toValue_eq (f : Frontmatter) : f.toValue = .map f.fields := rfl

/-- A field that may be absent reads back if what stands in it does. -/
theorem entry_optionally_iff {α : Type} {name : String} {write : α → Value} {o : Option α}
    (read : Value → Except SchemaError α) (there : Value.get? name es = o.map write) (not_null : ∀ a, write a ≠ .null) :
    (∃ found, entry es name (optionally read) = .ok found ∧ found.join = o) ↔ ∀ a ∈ o, read (write a) = .ok a := by
  unfold entry
  rw [there]
  cases o with
  | none => simp
  | some a =>
    have kept : optionally read (write a) = (read (write a)).map some := by
      unfold optionally
      split
      · rename_i null; exact absurd null (not_null a)
      · rfl
    simp only [Option.map_some, kept]
    cases h : read (write a) <;> simp [h, Except.map]

theorem get?_draft_fields (f : Frontmatter) : Value.get? "draft" f.fields = f.draft.map .bool := by
  obtain ⟨_, _, _, draft, estimation⟩ := f
  cases draft <;> cases estimation <;> rfl

theorem get?_estimation_fields (f : Frontmatter) :
    Value.get? "estimation" f.fields = f.estimation.map readingTimeValue := by
  obtain ⟨_, _, _, draft, estimation⟩ := f
  cases draft <;> cases estimation <;> rfl

theorem ofValue_toValue_eq_ok_iff (f : Frontmatter) : ofValue f.toValue = .ok f ↔ f.HasFiniteNumbers := by
  have draft := entry_optionally_iff boolField f.get?_draft_fields fun _ => Value.noConfusion
  have estimation := entry_optionally_iff readingTimeField f.get?_estimation_fields fun _ => Value.noConfusion
  have pubDate : entry f.fields "pubDate" dateField = .ok (some f.pubDate) :=
    entry_eq_ok_some_iff.2 ⟨_, rfl, dateField_text f.pubDate⟩
  have summary : entry f.fields "summary" textField = .ok (some f.summary) := entry_eq_ok_some_iff.2 ⟨_, rfl, rfl⟩
  have title : entry f.fields "title" textField = .ok (some f.title) := entry_eq_ok_some_iff.2 ⟨_, rfl, rfl⟩
  rw [toValue_eq, ofValue_eq_ok_iff, readFields_map_eq_ok_iff, draft, estimation]
  simp [pubDate, summary, title, readingTimeField_readingTimeValue_eq_ok_iff, HasFiniteNumbers, boolField]

/-- What is written is read back, and of a timestamp, with whatever offset, the date that is written in it. -/
theorem reads_back_and_timestamp :
    (∀ f : Frontmatter, ofValue f.toValue = .ok f ↔ f.HasFiniteNumbers) ∧
    ∀ (es : List (String × Value)) (f : Frontmatter) (t : Timestamp), ofValue (.map es) = .ok f →
      ofValue (.map (Value.insert "pubDate" (.text (String.ofList t.text)) es)) = .ok { f with pubDate := t.date } := by
  refine ⟨ofValue_toValue_eq_ok_iff, ?_⟩
  intro es f t read
  exact ofValue_insert_pubDate read (dateField_timestamp t)

/-- A post from before the year 0. -/
def ides : Frontmatter where
  title := "Ides"
  pubDate := ⟨-43, 3, 15, by decide⟩
  summary := ""
  draft := none
  estimation := some { text := "2 min read", minutes := 1.5, time := 90000.0, words := 300 }

/-- Half past midnight, when the old year still lasts at Greenwich. -/
def newYear : Timestamp where
  date := ⟨2025, 1, 1, by decide⟩
  four_digits := by decide
  separator := 'T'
  separator_mem := by decide
  hour := 0
  minute := 30
  second := 0
  fraction := []
  offset := .apart true 2 0

theorem reads_back_and_timestamp_ides :
    ides.pubDate.text = "-0043-03-15" ∧ ides.HasFiniteNumbers ∧ ofValue ides.toValue = .ok ides ∧
    ofValue (.map (Value.insert "pubDate" (.text "2025-01-01T00:30:00+02:00") ides.fields)) =
      .ok { ides with pubDate := newYear.date } := by
  have finite : ides.HasFiniteNumbers := by
    rintro t ⟨⟩
    exact ⟨by decide, by decide⟩
  have back : ofValue ides.toValue = .ok ides := (reads_back_and_timestamp.1 ides).2 finite
  have written : String.ofList newYear.text = "2025-01-01T00:30:00+02:00" := by decide
  refine ⟨by decide, finite, back, ?_⟩
  rw [← written]
  exact reads_back_and_timestamp.2 ides.fields ides newYear back

end Frontmatter

end Folio
