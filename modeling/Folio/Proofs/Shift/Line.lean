import Folio.Markdown.Block
import Folio.Proofs.Shift.Glyph
import Mathlib.Data.List.TakeWhile

/-!
# Readers of lines under a shift

What the readers of labels, destinations, tags, marks and tables find does not depend on where a text stands; the
glyphs that they return are shifted with the text.
-/

namespace Folio.Markdown

variable (s : Shift)

/-! ### Labels, destinations and titles -/

def Part.shift (p : Part) : Part := (p.1.map (.shift s), p.2.map (.shift s))

@[simp] theorem Part.shift_mk (gs rest : List Glyph) :
    Part.shift s (gs, rest) = (gs.map (.shift s), rest.map (.shift s)) := rfl

@[simp] theorem Part.fst_shift (p : Part) : (p.shift s).1 = p.1.map (.shift s) := rfl

@[simp] theorem Part.snd_shift (p : Part) : (p.shift s).2 = p.2.map (.shift s) := rfl

@[simp] theorem bytes_shift (gs : List Glyph) : bytes (gs.map (.shift s)) = bytes gs := by
  simp [bytes, Function.comp_def]

theorem readLabelInside_shift (acc gs : List Glyph) :
    readLabelInside (acc.map (.shift s)) (gs.map (.shift s)) = (readLabelInside acc gs).map (Part.shift s) := by
  fun_induction readLabelInside acc gs <;> rw [readLabelInside.eq_def] <;> simp_all

@[simp] theorem readLabelInside_nil_shift (gs : List Glyph) :
    readLabelInside [] (gs.map (.shift s)) = (readLabelInside [] gs).map (Part.shift s) :=
  readLabelInside_shift s [] gs

@[simp] theorem readLabel_shift (gs : List Glyph) :
    readLabel (gs.map (.shift s)) = (readLabel gs).map (Part.shift s) := by
  fun_cases readLabel gs <;> simp_all [readLabel, List.any_map, Function.comp_def]

theorem readEnclosed_shift (acc gs : List Glyph) :
    readEnclosed (acc.map (.shift s)) (gs.map (.shift s)) = (readEnclosed acc gs).map (Part.shift s) := by
  fun_induction readEnclosed acc gs <;> rw [readEnclosed.eq_def] <;> simp_all

theorem readBare_shift (acc : List Glyph) (depth : Nat) (gs : List Glyph) :
    readBare (acc.map (.shift s)) depth (gs.map (.shift s)) = (readBare acc depth gs).map (Part.shift s) := by
  fun_induction readBare acc depth gs with
  | case7 acc depth g gs blank closes opens deep =>
    rw [List.map_cons, readBare.eq_def]
    simp only [Glyph.char_shift, Glyph.isEol_shift]
    rw [if_neg blank, if_neg closes, if_pos opens, if_neg deep]
    rfl
  | case13 acc depth g gs blank closes opens closed control escape ih =>
    rw [List.map_cons, readBare.eq_def]
    simp only [Glyph.char_shift, Glyph.isEol_shift]
    rw [if_neg blank, if_neg closes, if_neg opens, if_neg closed, if_neg control, if_neg escape]
    exact ih
  | _ =>
    rw [readBare.eq_def]
    simp_all

@[simp] theorem readDestination_shift (gs : List Glyph) :
    readDestination (gs.map (.shift s)) = (readDestination gs).map (Part.shift s) := by
  fun_cases readDestination gs with
  | case1 => rfl
  | case2 g gs h => simpa [readDestination, h] using readEnclosed_shift s [] gs
  | case3 g gs h h' => simp_all [readDestination]
  | case4 g gs h h' => simpa [readDestination, h, h'] using readBare_shift s [] 0 (g :: gs)

theorem readTitleInside_shift (close : Char) (acc gs : List Glyph) :
    readTitleInside close (acc.map (.shift s)) (gs.map (.shift s)) =
      (readTitleInside close acc gs).map (Part.shift s) := by
  fun_induction readTitleInside close acc gs <;> rw [readTitleInside.eq_def] <;>
    simp_all [List.dropWhile_map, -List.dropWhile_eq_nil_iff]

@[simp] theorem readTitle_shift (gs : List Glyph) :
    readTitle (gs.map (.shift s)) = (readTitle gs).map (Part.shift s) := by
  fun_cases readTitle gs with
  | case1 => rfl
  | case2 g gs h => simpa [readTitle, h] using readTitleInside_shift s g.char [] gs
  | case3 g gs h h' => simpa [readTitle, h'] using readTitleInside_shift s ')' [] gs
  | case4 g gs h h' => simp_all [readTitle]

@[simp] theorem skipBlanks_shift (gs : List Glyph) : skipBlanks (gs.map (.shift s)) = (skipBlanks gs).map (.shift s) := by
  unfold skipBlanks
  rw [dropSpaces_shift]
  cases dropSpaces gs with
  | nil => rfl
  | cons g r => cases h : g.isEol <;> simp [h]

@[simp] theorem urlText_shift (gs : List Glyph) : urlText (gs.map (.shift s)) = urlText gs := by simp [urlText]

@[simp] theorem titleText_shift (gs : List Glyph) : titleText (gs.map (.shift s)) = titleText gs := by simp [titleText]

def Definition.shift (d : Definition) : Definition :=
  ⟨d.label.map (.shift s), d.target, d.taken.map (.shift s), d.rest.map (.shift s)⟩

@[simp] theorem endOfLine?_shift (gs : List Glyph) :
    endOfLine? (gs.map (.shift s)) = (endOfLine? gs).map (Part.shift s) := by
  unfold endOfLine?
  rw [dropSpaces_shift]
  cases dropSpaces gs with
  | nil => simp [List.takeWhile_map]
  | cons g r => cases h : g.isEol <;> simp [h, List.takeWhile_map]

/-- The end of the target of a link. -/
def closeResource (url : String) (title : Option String) (gs : List Glyph) : Option (Target × Glyph × List Glyph) :=
  match skipBlanks gs with
  | g :: r => if g.char = ')' then some (⟨url, title⟩, g, r) else none
  | [] => none

/-- A target with what follows it, shifted. -/
def shiftTarget (r : Target × Glyph × List Glyph) : Target × Glyph × List Glyph :=
  (r.1, r.2.1.shift s, r.2.2.map (.shift s))

@[simp] theorem closeResource_shift (url : String) (title : Option String) (gs : List Glyph) :
    closeResource url title (gs.map (.shift s)) = (closeResource url title gs).map (shiftTarget s) := by
  unfold closeResource
  rw [skipBlanks_shift]
  cases skipBlanks gs with
  | nil => rfl
  | cons g r => by_cases h : g.char = ')' <;> simp [h, shiftTarget]

theorem readResource_eq (gs : List Glyph) : readResource gs =
    match closeResource "" none gs with
    | some r => some r
    | none => (readDestination (skipBlanks gs)).bind fun (url, rest) =>
      if (skipBlanks rest).length < rest.length then
        match readTitle (skipBlanks rest) with
        | some (title, rest) => closeResource (urlText url) (some (titleText title)) rest
        | none => closeResource (urlText url) none rest
      else closeResource (urlText url) none rest := rfl

@[simp] theorem readResource_shift (gs : List Glyph) :
    readResource (gs.map (.shift s)) = (readResource gs).map (shiftTarget s) := by
  rw [readResource_eq, readResource_eq, closeResource_shift, skipBlanks_shift, readDestination_shift]
  cases closeResource "" none gs with
  | some r => rfl
  | none =>
    cases readDestination (skipBlanks gs) with
    | none => rfl
    | some part =>
      obtain ⟨url, rest⟩ := part
      by_cases h : (skipBlanks rest).length < rest.length
      · cases ht : readTitle (skipBlanks rest) <;> simp [h, ht]
      · simp [h]

/-- A definition whose title and end have been found. -/
def makeDefinition (gs label url : List Glyph) (title : Option String) (rest : List Glyph) : Option Definition :=
  (endOfLine? rest).map fun (blanks, after) =>
    ⟨label, ⟨urlText url, title⟩, gs.take (gs.length - rest.length + blanks.length), after⟩

@[simp] theorem makeDefinition_shift (gs label url : List Glyph) (title : Option String) (rest : List Glyph) :
    makeDefinition (gs.map (.shift s)) (label.map (.shift s)) (url.map (.shift s)) title (rest.map (.shift s)) =
      (makeDefinition gs label url title rest).map (.shift s) := by
  unfold makeDefinition
  rw [endOfLine?_shift]
  cases endOfLine? rest <;> simp [Definition.shift, List.map_take]

/-- What follows the colon behind a label. -/
def afterColon? : List Glyph → Option (List Glyph)
  | g :: r => if g.char = ':' then some r else none
  | [] => none

@[simp] theorem afterColon?_shift (gs : List Glyph) :
    afterColon? (gs.map (.shift s)) = (afterColon? gs).map (.map (.shift s)) := by
  cases gs with
  | nil => rfl
  | cons g r => by_cases h : g.char = ':' <;> simp [afterColon?, h]

theorem readDefinition_eq (gs : List Glyph) : readDefinition gs =
    (readLabel (dropSpaces gs)).bind fun (label, rest) =>
      (afterColon? rest).bind fun rest =>
        (readDestination (skipBlanks rest)).bind fun (url, rest) =>
          match if (skipBlanks rest).length < rest.length then
              (readTitle (skipBlanks rest)).bind fun (title, rest) =>
                makeDefinition gs label url (some (titleText title)) rest
            else none with
          | some d => some d
          | none => makeDefinition gs label url none rest := by
  unfold readDefinition
  cases readLabel (dropSpaces gs) with
  | none => rfl
  | some part =>
    obtain ⟨label, rest⟩ := part
    cases rest with
    | nil => rfl
    | cons g r =>
      by_cases h : g.char = ':'
      · simp only [afterColon?, h, Option.bind_eq_bind, Option.bind_some, if_true]
        rfl
      · simp [afterColon?, h]

@[simp] theorem readDefinition_shift (gs : List Glyph) :
    readDefinition (gs.map (.shift s)) = (readDefinition gs).map (.shift s) := by
  rw [readDefinition_eq, readDefinition_eq, dropSpaces_shift, readLabel_shift]
  cases readLabel (dropSpaces gs) with
  | none => rfl
  | some part =>
    obtain ⟨label, rest⟩ := part
    simp only [Option.map_some, Option.bind_some, Part.shift_mk, afterColon?_shift]
    cases afterColon? rest with
    | none => rfl
    | some rest =>
      simp only [Option.map_some, Option.bind_some, skipBlanks_shift, readDestination_shift]
      cases readDestination (skipBlanks rest) with
      | none => rfl
      | some part =>
        obtain ⟨url, rest⟩ := part
        simp only [Option.map_some, Option.bind_some, Part.shift_mk, skipBlanks_shift, List.length_map,
          readTitle_shift]
        by_cases h : (skipBlanks rest).length < rest.length
        · cases readTitle (skipBlanks rest) with
          | none => simp [h]
          | some part =>
            obtain ⟨title, rest'⟩ := part
            simp only [h, if_true, Option.map_some, Option.bind_some, Part.shift_mk, makeDefinition_shift,
              titleText_shift]
            cases makeDefinition gs label url (some (titleText title)) rest' <;> rfl
        · simp [h]

/-! ### Tags -/

theorem TagPart.rest?_shift (chained : Bool) (part : TagPart) (gs : List Glyph) :
    part.rest? chained (gs.map (.shift s)) = (part.rest? chained gs).map (.map (.shift s)) := by
  fun_induction TagPart.rest? chained part gs <;> simp_all [TagPart.rest?]

theorem takeWhile_char_shift (p : Char → Bool) (gs : List Glyph) :
    (gs.map (Glyph.shift s)).takeWhile (fun g => p g.char) = (gs.takeWhile fun g => p g.char).map (Glyph.shift s) :=
  List.takeWhile_map ..

theorem dropWhile_char_shift (p : Char → Bool) (gs : List Glyph) :
    (gs.map (Glyph.shift s)).dropWhile (fun g => p g.char) = (gs.dropWhile fun g => p g.char).map (Glyph.shift s) :=
  List.dropWhile_map ..

@[simp] theorem tagName?_shift (gs : List Glyph) :
    tagName? (gs.map (.shift s)) = (tagName? gs).map (Part.shift s) := by
  cases gs with
  | nil => rfl
  | cons g gs =>
    by_cases h : g.char.isAlpha
    · have take := takeWhile_char_shift s (fun c => c.isAlphanum || c = '-') (g :: gs)
      have drop := dropWhile_char_shift s (fun c => c.isAlphanum || c = '-') (g :: gs)
      simp_all [tagName?]
    · simp [tagName?, h]

@[simp] theorem openTagRest?_shift (chained : Bool) (gs : List Glyph) :
    openTagRest? chained (gs.map (.shift s)) = (openTagRest? chained gs).map (.map (.shift s)) := by
  cases gs with
  | nil => rfl
  | cons g gs =>
    have rest := TagPart.rest?_shift s chained .between (g :: gs)
    rw [List.map_cons] at rest ⊢
    by_cases h : isBlankOrEol g.char || g.char = '/' || g.char = '>'
    · simp only [openTagRest?, Glyph.char_shift, h, if_true, rest]
    · simp only [openTagRest?, Glyph.char_shift, h]
      rfl

@[simp] theorem closeTagRest?_shift (gs : List Glyph) :
    closeTagRest? (gs.map (.shift s)) = (closeTagRest? gs).map (.map (.shift s)) := by
  simp only [closeTagRest?, List.dropWhile_map, Function.comp_def, Glyph.char_shift]
  cases gs.dropWhile fun g => isBlankOrEol g.char with
  | nil => rfl
  | cons g r => by_cases h : g.char = '>' <;> simp [h]

end Folio.Markdown
