/-
**Lines with their ends.**

Lines are written one below the other with a line feed behind each (`ended`), and read back from the
line feeds alone (`endedLines?`). Main statements: `endedLines?_eq_some_iff`, what is read are those
lines that give the text when they are written, and none of them holds a line feed;
`readLines?_ended`, where each line says one item the whole text says all of them.
-/

import RSource.Text.Bytes
import Mathlib.Data.List.Forall2

namespace RSource.Text

/-- Lines one below the other, each with its end. -/
def ended (lines : List Text) : Text := lines.flatMap (· ++ ['\n'])

/-- Puts a character in front of the first line; where there is none, its end is missing. -/
def extendFirst? (c : Char) : List Text → Option (List Text)
  | [] => none
  | line :: others => some ((c :: line) :: others)

/-- The lines of a text in which each has its end. -/
def endedLines? : Text → Option (List Text)
  | [] => some []
  | c :: rest =>
    if c = '\n' then (endedLines? rest).map ([] :: ·)
    else (endedLines? rest).bind (extendFirst? c)

theorem ended_cons (line : Text) (others : List Text) :
    ended (line :: others) = line ++ '\n' :: ended others := by
  rw [ended, List.flatMap_cons, List.append_assoc, List.singleton_append, ended]

/-- The first line ends at the first line feed. -/
theorem endedLines?_append {line : Text} (rest : Text) (single : '\n' ∉ line) :
    endedLines? (line ++ '\n' :: rest) = (endedLines? rest).map (line :: ·) := by
  induction line with
  | nil => rw [List.nil_append, endedLines?, if_pos rfl]
  | cons c line previous =>
    rw [List.mem_cons, not_or] at single
    rw [List.cons_append, endedLines?, if_neg (Ne.symm single.1), previous single.2]
    cases endedLines? rest <;> rfl

/-- **Lines that are written are read back.** -/
theorem endedLines?_ended {lines : List Text} (single : ∀ line ∈ lines, '\n' ∉ line) :
    endedLines? (ended lines) = some lines := by
  induction lines with
  | nil => rfl
  | cons line others previous =>
    rw [List.forall_mem_cons] at single
    rw [ended_cons, endedLines?_append _ single.1, previous single.2, Option.map_some]

/-- What is read are the lines of the text. -/
theorem eq_ended_of_endedLines? {text : Text} {lines : List Text}
    (found : endedLines? text = some lines) :
    text = ended lines ∧ ∀ line ∈ lines, '\n' ∉ line := by
  induction text generalizing lines with
  | nil =>
    cases found
    exact ⟨rfl, nofun⟩
  | cons c rest previous =>
    rw [endedLines?] at found
    by_cases isEnd : c = '\n'
    · rw [if_pos isEnd] at found
      obtain ⟨others, below, rfl⟩ := Option.map_eq_some_iff.mp found
      obtain ⟨same, single⟩ := previous below
      refine ⟨?_, List.forall_mem_cons.mpr ⟨List.not_mem_nil, single⟩⟩
      rw [ended_cons, ← same, isEnd, List.nil_append]
    · rw [if_neg isEnd] at found
      obtain ⟨_ | ⟨line, others⟩, below, further⟩ := Option.bind_eq_some_iff.mp found
      · cases further
      · cases further
        obtain ⟨same, single⟩ := previous below
        rw [List.forall_mem_cons] at single ⊢
        refine ⟨?_, ?_, single.2⟩
        · rw [ended_cons, List.cons_append, ← ended_cons, ← same]
        · rw [List.mem_cons, not_or]
          exact ⟨Ne.symm isEnd, single.1⟩

/-- **The lines of a text are read from its line feeds alone.** -/
theorem endedLines?_eq_some_iff {text : Text} {lines : List Text} :
    endedLines? text = some lines ↔ text = ended lines ∧ ∀ line ∈ lines, '\n' ∉ line := by
  refine ⟨eq_ended_of_endedLines?, ?_⟩
  rintro ⟨rfl, single⟩
  exact endedLines?_ended single

/-! ### What lines say -/

section Items

variable {Item : Type} (read? : Text → Option Item)

/-- A line that says an item to its reader. -/
structure Says (line : Text) (item : Item) : Prop where
  single : '\n' ∉ line
  reads : read? line = some item

/-- What the lines of a text say. -/
def readLines? (text : Text) : Option (List Item) := (endedLines? text).bind (·.mapM read?)

variable {read?} {lines : List Text} {items : List Item}

theorem map_eq_of_says (each : List.Forall₂ (Says read?) lines items) :
    lines.map read? = items.map some := by
  induction each with
  | nil => rfl
  | cons first _ previous => rw [List.map_cons, List.map_cons, first.reads, previous]

theorem mapM_eq_of_says (each : List.Forall₂ (Says read?) lines items) :
    lines.mapM read? = some items := by
  induction each with
  | nil => rfl
  | cons first _ previous =>
    rw [List.mapM_cons, first.reads, previous]
    rfl

theorem endedLines?_of_says (each : List.Forall₂ (Says read?) lines items) :
    endedLines? (ended lines) = some lines := by
  refine endedLines?_eq_some_iff.mpr ⟨rfl, ?_⟩
  induction each with
  | nil => exact nofun
  | cons first _ previous => exact List.forall_mem_cons.mpr ⟨first.single, previous⟩

/-- **Items that stand line by line are read back.** -/
theorem readLines?_ended (each : List.Forall₂ (Says read?) lines items) :
    readLines? read? (ended lines) = some items := by
  rw [readLines?, endedLines?_of_says each, Option.bind_some, mapM_eq_of_says each]

end Items

end RSource.Text
