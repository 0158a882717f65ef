import Folio.Calendar.Reader
import Folio.Proofs.Text
import Mathlib.Algebra.Group.Nat.Defs
import Mathlib.Data.List.Basic

/-!
# Dates are read as they are written

A date that is written reads back, whatever its year (`Date.read_text`). A `Timestamp` is a date with a time of day and
an offset from UTC; of its text only the date is kept, and the offset does not move it (`Timestamp.read_text`). Both
rest on one fact about padded numbers and their readers: what is read is the number, and the text behind it is left.
-/

namespace Folio

open Text

namespace Calendar

theorem daysIn_le (year : Int) (month : Nat) : daysIn year month ≤ 31 := by
  unfold daysIn
  repeat' split
  all_goals omega

theorem daysIn_of_late {month : Nat} (h : 12 < month) (year : Int) : daysIn year month = 0 := by
  unfold daysIn
  split <;> omega

end Calendar

namespace Date

/-! ### Padded numbers -/

section

variable {width n : Nat} {c : Char} {ds rest : List Char}

theorem number_padded (width n : Nat) : number (padded width n) = n := by
  have eq : number (padded width n) = Nat.ofDigitChars 10 (padded width n) 0 := by
    rw [Nat.ofDigitChars_eq_foldl]
    simp only [number, Nat.mul_comm]
    rfl
  rw [eq, padded, Nat.ofDigitChars_append, Nat.ofDigitChars_replicate_zero, Nat.mul_zero,
    Nat.ofDigitChars_toDigits (by decide) (by decide)]

theorem isDigit_of_mem_padded (h : c ∈ padded width n) : c.isDigit = true := by
  rcases List.mem_append.1 h with zero | digit
  · rw [List.eq_of_mem_replicate zero]; rfl
  · exact Nat.isDigit_of_mem_toDigits (by decide) (by decide) digit

theorem length_padded (pos : 0 < width) (lt : n < 10 ^ width) : (padded width n).length = width := by
  have le := (Nat.length_toDigits_le_iff (by decide) pos).2 lt
  simp only [padded, List.length_append, List.length_replicate]
  omega

theorem exists_padded (width n : Nat) : ∃ c ds, padded width n = c :: ds ∧ c.isDigit = true := by
  cases h : padded width n with
  | nil => exact absurd (List.append_eq_nil_iff.1 h).2 Nat.toDigits_ne_nil
  | cons c ds => exact ⟨c, ds, rfl, isDigit_of_mem_padded (h ▸ List.mem_cons_self)⟩

theorem isBlank_of_isDigit (h : c.isDigit = true) : isBlank c = false := by
  have low : c.toNat < 128 := by
    have le : c.val ≤ 57 := (of_decide_eq_true (Bool.and_eq_true_iff.1 h).2)
    exact Nat.lt_of_le_of_lt (UInt32.le_iff_toNat_le.1 le) (by decide)
  rw [Bool.eq_false_iff]
  intro blank
  have letter := isLetter_of_isAlphanum (by simp [Char.isAlphanum, h]) low
  rw [isLetter_of_isBlank blank] at letter
  cases letter

theorem trimStart_padded (width n : Nat) (rest : List Char) :
    trimStart (padded width n ++ rest) = padded width n ++ rest := by
  obtain ⟨c, ds, eq, digit⟩ := exists_padded width n
  rw [eq]
  exact dropWhile_eq_self_of_head fun d hd => by
    obtain rfl : c = d := by simpa using hd
    exact isBlank_of_isDigit digit

theorem not_blank_last_of_padded_suffix {s : List Char} (h : padded width n <:+ s) :
    ∀ c ∈ s.getLast?, isBlank c = false := by
  intro c hc
  obtain ⟨front, rfl⟩ := h
  obtain ⟨d, ds, eq, -⟩ := exists_padded width n
  rw [List.getLast?_append_of_ne_nil front (by rw [eq]; exact List.cons_ne_nil d ds)] at hc
  exact isBlank_of_isDigit (isDigit_of_mem_padded (List.mem_of_getLast? hc))

/-- A number is read up to what is no digit. -/
theorem readNumber_padded {limit : Nat} (pos : 0 < width) (le : width ≤ limit) (lt : n < 10 ^ width)
    (stop : ∀ c ∈ rest.head?, c.isDigit = false) :
    readNumber limit (padded width n ++ rest) = some (n, rest) := by
  have length := length_padded pos lt
  have digits : ((padded width n ++ rest).take limit).takeWhile Char.isDigit = padded width n := by
    rw [List.take_append, List.take_of_length_le (by omega)]
    refine takeWhile_append_of_head (fun c hc => isDigit_of_mem_padded hc) fun c hc => ?_
    rw [List.head?_take] at hc
    split at hc
    · cases hc
    · exact stop c hc
  obtain ⟨c, ds, eq, -⟩ := exists_padded width n
  unfold readNumber
  simp only [trimStart_padded, digits, number_padded, List.drop_left]
  rw [eq]
  rfl

theorem readDigits_padded (pos : 0 < width) (lt : n < 10 ^ width) (rest : List Char) :
    readDigits width (padded width n ++ rest) = .ok (n, rest) := by
  have length := length_padded pos lt
  have front : (padded width n ++ rest).take width = padded width n := by
    rw [List.take_append_of_le_length (by omega), List.take_of_length_le (by omega)]
  have back : (padded width n ++ rest).drop width = rest := by
    rw [List.drop_append_of_le_length (by omega), List.drop_eq_nil_of_le (by omega), List.nil_append]
  have digits : (padded width n).all Char.isDigit = true := List.all_eq_true.2 fun c hc => isDigit_of_mem_padded hc
  unfold readDigits
  simp only [front, back, digits, length, number_padded, decide_true, Bool.and_true, if_true]

end

/-! ### Dates -/

section

variable {rest : List Char}

theorem readYear_padded {n : Nat} (lt : n < 10 ^ 4) (stop : ∀ c ∈ rest.head?, c.isDigit = false) :
    readYear (padded 4 n ++ rest) = some ((n : Int), rest) := by
  obtain ⟨c, ds, eq, digit⟩ := exists_padded 4 n
  have no_sign {sign : Char} (sign_char : sign.isDigit = false) (r : List Char) : padded 4 n ++ rest ≠ sign :: r := by
    rw [eq]
    intro h
    obtain ⟨rfl, -⟩ := List.cons.inj h
    exact absurd digit (by rw [sign_char]; decide)
  unfold readYear
  rw [trimStart_padded]
  split
  · rename_i h; exact absurd h (no_sign rfl _)
  · rename_i h; exact absurd h (no_sign rfl _)
  · rw [readNumber_padded (by decide) (Nat.le_refl 4) lt stop]
    rfl

theorem readYear_signed (n : Nat) (stop : ∀ c ∈ rest.head?, c.isDigit = false) :
    readYear ('-' :: (padded 4 n ++ rest)) = some (-(n : Int), rest) ∧
    readYear ('+' :: (padded 4 n ++ rest)) = some ((n : Int), rest) := by
  obtain ⟨c, ds, eq, -⟩ := exists_padded 4 n
  have run : (padded 4 n ++ rest).takeWhile Char.isDigit = padded 4 n :=
    takeWhile_append_of_head (fun c hc => isDigit_of_mem_padded hc) stop
  have some_digits : (padded 4 n).isEmpty = false := by rw [eq]; rfl
  have minus : trimStart ('-' :: (padded 4 n ++ rest)) = '-' :: (padded 4 n ++ rest) := rfl
  have plus : trimStart ('+' :: (padded 4 n ++ rest)) = '+' :: (padded 4 n ++ rest) := rfl
  constructor
  · unfold readYear
    simp only [minus, run, some_digits, number_padded, List.drop_left, Bool.false_eq_true, if_false]
  · unfold readYear
    simp only [plus, run, some_digits, number_padded, List.drop_left, Bool.false_eq_true, if_false]

theorem readYear_yearText (year : Int) (stop : ∀ c ∈ rest.head?, c.isDigit = false) :
    readYear (yearText year ++ rest) = some (year, rest) := by
  unfold yearText
  split
  · rename_i plain
    rw [readYear_padded (by omega) stop, Int.toNat_of_nonneg plain.1]
  · split
    · rename_i negative
      rw [List.cons_append, (readYear_signed year.natAbs stop).1, show -(year.natAbs : Int) = year by omega]
    · rw [List.cons_append, (readYear_signed year.natAbs stop).2, show (year.natAbs : Int) = year by omega]

end

theorem day_bounds (d : Date) : 1 ≤ d.day ∧ d.day ≤ Calendar.daysIn d.year d.month := by
  have exists_day := d.exists_day
  simp only [Calendar.isDay, Bool.and_eq_true, decide_eq_true_eq] at exists_day
  exact ⟨exists_day.1.2, exists_day.2⟩

theorem month_lt (d : Date) : d.month < 10 ^ 2 := by
  have bounds := d.day_bounds
  by_contra late
  rw [Calendar.daysIn_of_late (by omega)] at bounds
  omega

theorem day_lt (d : Date) : d.day < 10 ^ 2 :=
  Nat.lt_of_le_of_lt (Nat.le_trans d.day_bounds.2 (Calendar.daysIn_le d.year d.month)) (by decide)

theorem of?_eq_self (d : Date) : of? d.year d.month d.day = some d := of?_eq_some_iff.2 ⟨rfl, rfl, rfl⟩

theorem toList_text (d : Date) :
    d.text.toList = yearText d.year ++ '-' :: (padded 2 d.month ++ '-' :: padded 2 d.day) := by
  rw [text, String.toList_ofList, List.append_assoc, List.cons_append]

theorem head_text (d : Date) (rest : List Char) : ∀ c ∈ (d.text.toList ++ rest).head?, isBlank c = false := by
  intro c hc
  obtain ⟨e, ds, eq, digit⟩ := exists_padded 4 d.year.toNat
  rw [toList_text, yearText] at hc
  split at hc
  · rw [eq] at hc
    cases hc
    exact isBlank_of_isDigit digit
  · split at hc <;> cases hc <;> rfl

theorem trim_text (d : Date) : trim d.text.toList = d.text.toList := by
  have head := d.head_text []
  rw [List.append_nil] at head
  have ends : padded 2 d.day <:+ d.text.toList :=
    ⟨yearText d.year ++ '-' :: (padded 2 d.month ++ ['-']), by simp [toList_text]⟩
  exact trim_eq_self_of_ends head (not_blank_last_of_padded_suffix ends)

/-- A date alone is read up to what is no digit, and nothing may be left there. -/
theorem readDay?_append (d : Date) {rest : List Char} (stop : ∀ c ∈ rest.head?, c.isDigit = false) :
    readDay? (d.text.toList ++ rest) = if rest.isEmpty then some d else none := by
  have month (r : List Char) : readNumber 2 (padded 2 d.month ++ '-' :: r) = some (d.month, '-' :: r) :=
    readNumber_padded (by decide) (Nat.le_refl 2) d.month_lt (by simp)
  have day := readNumber_padded (by decide) (Nat.le_refl 2) d.day_lt stop
  have dash (s : List Char) : stripFront? ['-'] ('-' :: s) = some s := stripFront?_eq_some_iff.2 rfl
  rw [toList_text, List.append_assoc, List.cons_append, List.append_assoc, List.cons_append, readDay?,
    readYear_yearText _ (by simp)]
  simp only [bind, Option.bind, dash, month, day, of?_eq_self]

theorem readDay?_text (d : Date) : readDay? d.text.toList = some d := by
  have alone : readDay? (d.text.toList ++ []) = some d := d.readDay?_append (by simp)
  rwa [List.append_nil] at alone

theorem read_text (d : Date) : read d.text.toList = .ok d := by rw [read, readDay?_text]

end Date

/-! ### Timestamps -/

/-- An offset from UTC: none, or hours and minutes ahead or behind. -/
inductive Offset where
  | utc (capital : Bool)
  | apart (ahead : Bool) (hours : Fin 24) (minutes : Fin 60)

namespace Offset

open Date

def text : Offset → List Char
  | utc capital => [if capital then 'Z' else 'z']
  | apart ahead hours minutes => (if ahead then '+' else '-') :: (padded 2 hours ++ ':' :: padded 2 minutes)

def size : Offset → Nat
  | utc _ => 0
  | apart _ hours minutes => hours * 60 + minutes

theorem size_lt (o : Offset) : o.size < 24 * 60 := by
  cases o with
  | utc capital => exact Nat.zero_lt_succ _
  | apart ahead hours minutes =>
    simp only [size]
    omega

/-- The limit is that of the tens. -/
theorem readOffsetPart_padded {n : Nat} {limit : Char} (lt : n < 10 ^ 2) (below : n < 10 * (limit.toNat - 47))
    (rest : List Char) : readOffsetPart limit (padded 2 n ++ rest) = .ok (n, rest) := by
  obtain ⟨a, b, eq⟩ := List.length_eq_two.1 (length_padded (by decide) lt)
  have digits : ∀ c ∈ [a, b], c.isDigit = true := fun c hc => isDigit_of_mem_padded (eq ▸ hc)
  have value : number [a, b] = n := by rw [← eq, number_padded]
  have tens : a ≤ limit := by
    have sum : (0 * 10 + (a.toNat - 48)) * 10 + (b.toNat - 48) = n := value
    refine UInt32.le_iff_toNat_le.2 (show a.toNat ≤ limit.toNat from ?_)
    omega
  have size : ¬ byteSize (a :: b :: rest) < 2 := by
    have := length_le_byteSize (a :: b :: rest)
    simp only [List.length_cons] at this
    omega
  rw [eq, List.cons_append, List.cons_append, List.nil_append, readOffsetPart, if_neg size]
  simp only [digits a (by simp), digits b (by simp), Bool.and_self, if_true, tens, value]

theorem readOffset_text (o : Offset) : readOffset o.text = .ok (o.size, []) := by
  cases o with
  | utc capital => cases capital <;> rfl
  | apart ahead hours minutes =>
    have nine : '9'.toNat = 57 := rfl
    have five : '5'.toNat = 53 := rfl
    have read_hours (s : List Char) : readOffsetPart '9' (padded 2 hours ++ s) = .ok (hours.val, s) :=
      readOffsetPart_padded (by omega) (by omega) s
    have read_minutes : readOffsetPart '5' (padded 2 minutes ++ []) = .ok (minutes.val, []) :=
      readOffsetPart_padded (by omega) (by omega) []
    rw [List.append_nil] at read_minutes
    cases ahead <;> simp [text, readOffset, size, bind, Except.bind, read_hours, read_minutes]

end Offset

/-- A date in a year of four digits with a time of day and an offset from UTC. -/
structure Timestamp where
  date : Date
  four_digits : 0 ≤ date.year ∧ date.year ≤ 9999
  separator : Char
  separator_mem : separator ∈ ['T', 't', ' ']
  hour : Fin 24
  minute : Fin 60
  /-- A minute may end with a leap second. -/
  second : Fin 61
  fraction : List (Fin 10)
  offset : Offset

namespace Timestamp

open Date

def fractionText : List (Fin 10) → List Char
  | [] => []
  | n :: ns => '.' :: (n :: ns).map fun n => Nat.digitChar n.val

def time (t : Timestamp) : List Char :=
  padded 2 t.hour ++ ':' :: (padded 2 t.minute ++ ':' :: (padded 2 t.second ++ fractionText t.fraction))

def text (t : Timestamp) : List Char := t.date.text.toList ++ t.separator :: (t.time ++ t.offset.text)

theorem skipFraction_point {r : List Char} (h : r ≠ []) :
    skipFraction ('.' :: r) =
      if (r.dropWhile Char.isDigit).length = r.length then .error .invalid else .ok (r.dropWhile Char.isDigit) := by
  cases r with
  | nil => exact absurd rfl h
  | cons c r => rfl

theorem skipFraction_of_ne_point {s : List Char} (h : ∀ c ∈ s.head?, c ≠ '.') : skipFraction s = .ok s := by
  unfold skipFraction
  split
  · exact absurd rfl (h '.' rfl)
  · exact absurd rfl (h '.' rfl)
  · rfl

theorem skipFraction_fractionText (ns : List (Fin 10)) {rest : List Char}
    (stop : ∀ c ∈ rest.head?, c.isDigit = false ∧ c ≠ '.') : skipFraction (fractionText ns ++ rest) = .ok rest := by
  cases ns with
  | nil => exact skipFraction_of_ne_point fun c hc => (stop c hc).2
  | cons n ns =>
    have digit : ∀ n : Fin 10, (Nat.digitChar n.val).isDigit = true := by decide
    have digits : ∀ c ∈ (n :: ns).map fun n => Nat.digitChar n.val, c.isDigit = true := by
      intro c hc
      obtain ⟨n, -, rfl⟩ := List.mem_map.1 hc
      exact digit n
    have dropped := dropWhile_append_of_head digits fun c hc => (stop c hc).1
    rw [fractionText, List.cons_append, skipFraction_point (by simp), dropped, if_neg]
    rw [List.length_append, List.length_map, List.length_cons]
    omega

theorem head_offset (o : Offset) : ∀ c ∈ o.text.head?, c.isDigit = false ∧ c ≠ '.' := by
  cases o with
  | utc capital => cases capital <;> simp [Offset.text]
  | apart ahead hours minutes => cases ahead <;> simp [Offset.text]

theorem text_eq (t : Timestamp) :
    t.text = padded 4 t.date.year.toNat ++ '-' :: (padded 2 t.date.month ++ '-' :: (padded 2 t.date.day ++
      t.separator :: (padded 2 t.hour ++ ':' :: (padded 2 t.minute ++ ':' :: (padded 2 t.second ++
        (fractionText t.fraction ++ t.offset.text)))))) := by
  rw [text, time, toList_text, yearText, if_pos t.four_digits]
  simp only [List.append_assoc, List.cons_append]

theorem year_lt (t : Timestamp) : t.date.year.toNat < 10 ^ 4 := by
  have := t.four_digits
  omega

theorem byteSize_text (t : Timestamp) : 19 ≤ byteSize t.text := by
  refine Nat.le_trans ?_ (length_le_byteSize _)
  have year := length_padded (by decide) t.year_lt
  have month := length_padded (by decide) t.date.month_lt
  have day := length_padded (by decide) t.date.day_lt
  have hour : (padded 2 t.hour).length = 2 := length_padded (by decide) (by omega)
  have minute : (padded 2 t.minute).length = 2 := length_padded (by decide) (by omega)
  have second : (padded 2 t.second).length = 2 := length_padded (by decide) (by omega)
  rw [text_eq]
  simp only [List.length_append, List.length_cons]
  omega

theorem readTimestamp_text (t : Timestamp) : readTimestamp t.text = .ok t.date := by
  have size : ¬ byteSize t.text < 19 := Nat.not_lt.2 t.byteSize_text
  have same_year : (t.date.year.toNat : Int) = t.date.year := Int.toNat_of_nonneg t.four_digits.1
  have date : of? (t.date.year.toNat : Int) t.date.month t.date.day = some t.date := by rw [same_year, of?_eq_self]
  have year := readDigits_padded (by decide) t.year_lt
  have month := readDigits_padded (by decide) t.date.month_lt
  have day := readDigits_padded (by decide) t.date.day_lt
  have hour (s : List Char) : readDigits 2 (padded 2 t.hour ++ s) = .ok (t.hour.val, s) :=
    readDigits_padded (by decide) (by omega) s
  have minute (s : List Char) : readDigits 2 (padded 2 t.minute ++ s) = .ok (t.minute.val, s) :=
    readDigits_padded (by decide) (by omega) s
  have second (s : List Char) : readDigits 2 (padded 2 t.second ++ s) = .ok (t.second.val, s) :=
    readDigits_padded (by decide) (by omega) s
  have separator : (t.separator = 'T' || t.separator = 't' || t.separator = ' ') = true := by
    simpa [or_assoc] using t.separator_mem
  have fraction := skipFraction_fractionText t.fraction (head_offset t.offset)
  have in_range : ¬ (23 < t.hour.val ∨ 59 < t.minute.val ∨ 60 < t.second.val) := by omega
  have offset := t.offset.size_lt
  unfold readTimestamp
  rw [if_neg size, text_eq]
  simp only [bind, Except.bind, year, month, day, date, readChar, decide_true, if_true, hour, minute, second,
    separator, fraction, Offset.readOffset_text]
  rw [if_neg (by simpa [or_assoc] using in_range), if_neg (by simp), if_neg (Nat.not_le.2 offset)]

theorem readDay?_text (t : Timestamp) : readDay? t.text = none := by
  have separator : t.separator.isDigit = false := by
    have mem := t.separator_mem
    simp only [List.mem_cons, List.not_mem_nil, or_false] at mem
    rcases mem with h | h | h <;> rw [h] <;> rfl
  rw [text, t.date.readDay?_append (by simpa using separator)]
  rfl

theorem trim_text (t : Timestamp) : trim t.text = t.text := by
  refine trim_eq_self_of_ends (t.date.head_text _) ?_
  cases h : t.offset with
  | utc capital =>
    rw [text, h, Offset.text, ← List.cons_append, ← List.append_assoc, List.getLast?_append_of_ne_nil _ (by simp)]
    cases capital <;> simp <;> decide
  | apart ahead hours minutes =>
    have ends : padded 2 minutes <:+ t.text := by
      rw [text, h, Offset.text]
      exact ⟨t.date.text.toList ++ t.separator :: (t.time ++ (if ahead then '+' else '-') :: (padded 2 hours ++ [':'])),
        by simp⟩
    exact not_blank_last_of_padded_suffix ends

/-- Of a timestamp the date is read that is written in it, whatever the offset. -/
theorem read_text (t : Timestamp) : read t.text = .ok t.date := by rw [Date.read, readDay?_text, readTimestamp_text]

end Timestamp

end Folio
