import HornQuery.Theory.Script
import Mathlib.Data.List.Induction

namespace HornQuery.Theory

/-- A line of a script, with the fact that it states if that was asserted. -/
structure Line where
  number : Nat
  text : String
  fact? : Option Term

def Line.isMatched (pattern : Term) (line : Line) : Bool :=
  line.fact?.any pattern.matches

def entryLine? (number : Nat) : Entry → Option Line
  | .clause text => some ⟨number, text, none⟩
  | .library name => some ⟨number, libraryDirective name, none⟩
  | .asserted fact => some ⟨number, fact.clauseText ++ ".", some fact⟩
  | .retracted _ => none

/-- The lines after one more entry; a retraction that cannot be read changes nothing. -/
def replayStep (lines : List Line) : Entry × Nat → List Line
  | (.retracted text, _) =>
      match Term.parse text with
      | .ok pattern => lines.eraseP (Line.isMatched pattern)
      | .error _ => lines
  | (entry, number) => lines ++ (entryLine? number entry).toList

def replay (log : List Entry) : List Line :=
  log.zipIdx.foldl replayStep []

theorem replay_concat (log : List Entry) (entry : Entry) :
    replay (log ++ [entry]) = replayStep (replay log) (entry, log.length) := by
  simp [replay, List.zipIdx_append]

theorem replay_retracted {log : List Entry} {text : String} {pattern : Term}
    (read : Term.parse text = .ok pattern) :
    replay (log ++ [.retracted text]) = (replay log).eraseP (Line.isMatched pattern) := by
  rw [replay_concat, replayStep, read]

theorem replay_unreadable {log : List Entry} {text : String} {cause : ReadError}
    (refused : Term.parse text = .error cause) :
    replay (log ++ [.retracted text]) = replay log := by
  rw [replay_concat, replayStep, refused]

/-! A draft has a gap where a line was. -/

namespace Draft

def factsFrom (place : Nat) : List (Option Line) → List (Nat × Term)
  | [] => []
  | slot :: slots =>
      ((slot.bind Line.fact?).map fun fact => (place, fact)).toList ++ factsFrom (place + 1) slots

/-- A draft that consists of lines and gaps: its facts are those of the lines that are left. -/
structure Shows (draft : Draft) (slots : List (Option Line)) : Prop where
  lines_eq : draft.lines = slots.map (Option.map Line.text)
  facts_eq : draft.facts = factsFrom 0 slots

theorem factsFrom_append (place : Nat) (former latter : List (Option Line)) :
    factsFrom place (former ++ latter) =
      factsFrom place former ++ factsFrom (place + former.length) latter := by
  induction former generalizing place with
  | nil => rfl
  | cons slot former induction =>
      rw [List.cons_append, factsFrom, factsFrom, induction, List.append_assoc, List.length_cons,
        Nat.add_assoc, Nat.add_comm 1]

theorem exists_line_of_mem_factsFrom {place : Nat} {slots : List (Option Line)}
    {fact : Nat × Term} (member : fact ∈ factsFrom place slots) :
    ∃ line, some line ∈ slots ∧ line.fact? = some fact.2 := by
  induction slots generalizing place with
  | nil => cases member
  | cons slot slots induction =>
      rcases List.mem_append.mp member with first | later
      · obtain ⟨stated, isStated, rfl⟩ := Option.map_eq_some_iff.mp (Option.mem_toList.mp first)
        obtain ⟨line, rfl, isFact⟩ := Option.bind_eq_some_iff.mp isStated
        exact ⟨line, List.mem_cons_self, isFact⟩
      · obtain ⟨line, isLine, isFact⟩ := induction later
        exact ⟨line, List.mem_cons_of_mem slot isLine, isFact⟩

variable {draft : Draft} {slots : List (Option Line)}

theorem shows_empty : Shows ⟨[], []⟩ [] :=
  ⟨rfl, rfl⟩

theorem Shows.addLine (shows : draft.Shows slots) (number : Nat) (text : String) :
    (draft.addLine text).Shows (slots ++ [some ⟨number, text, none⟩]) := by
  constructor
  · simp [Draft.addLine, shows.lines_eq]
  · simp [Draft.addLine, shows.facts_eq, factsFrom_append, factsFrom]

theorem Shows.addFact (shows : draft.Shows slots) (number : Nat) (fact : Term) :
    (draft.addFact fact).Shows (slots ++ [some ⟨number, fact.clauseText ++ ".", some fact⟩]) := by
  constructor
  · simp [Draft.addFact, shows.lines_eq]
  · simp [Draft.addFact, shows.lines_eq, shows.facts_eq, factsFrom_append, factsFrom]

def slotIsMatched (pattern : Term) (slot : Option Line) : Bool :=
  slot.any (Line.isMatched pattern)

theorem findIdx?_factsFrom {pattern : Term} {place : Nat}
    (unmatched : ∀ slot ∈ slots, slotIsMatched pattern slot = false) :
    (factsFrom place slots).findIdx? (fun fact => pattern.matches fact.2) = none := by
  rw [List.findIdx?_eq_none_iff]
  intro fact member
  obtain ⟨line, isLine, isFact⟩ := exists_line_of_mem_factsFrom member
  have missed := unmatched _ isLine
  rwa [slotIsMatched, Option.any_some, Line.isMatched, isFact, Option.any_some] at missed

theorem eraseP_filterMap {pattern : Term}
    (unmatched : ∀ slot ∈ slots, slotIsMatched pattern slot = false) (rest : List Line) :
    (slots.filterMap id ++ rest).eraseP (Line.isMatched pattern) =
      slots.filterMap id ++ rest.eraseP (Line.isMatched pattern) := by
  apply List.eraseP_append_right
  intro line member
  obtain ⟨slot, isSlot, rfl⟩ := List.mem_filterMap.mp member
  simpa [slotIsMatched] using unmatched _ isSlot

/-- A draft without a matching fact stays as it is, and otherwise the first line that states one
becomes a gap. -/
theorem Shows.removeFact (shows : draft.Shows slots) (pattern : Term) :
    ∃ left, (draft.removeFact pattern).Shows left ∧
      left.filterMap id = (slots.filterMap id).eraseP (Line.isMatched pattern) := by
  cases found : slots.find? (slotIsMatched pattern) with
  | none =>
      have unmatched : ∀ slot ∈ slots, slotIsMatched pattern slot = false := by
        simpa using List.find?_eq_none.mp found
      have same := eraseP_filterMap unmatched []
      rw [List.append_nil, List.eraseP_nil, List.append_nil] at same
      refine ⟨slots, ?_, same.symm⟩
      rw [Draft.removeFact, shows.facts_eq, findIdx?_factsFrom unmatched]
      exact shows
  | some slot =>
      obtain ⟨isMatched, former, latter, rfl, earlier⟩ := List.find?_eq_some_iff_append.mp found
      obtain ⟨line, rfl, states⟩ := (Option.any_eq_true _ _).mp isMatched
      obtain ⟨fact, isFact, matched⟩ := (Option.any_eq_true _ _).mp states
      have unmatched : ∀ slot ∈ former, slotIsMatched pattern slot = false := by
        simpa using earlier
      have facts : draft.facts = factsFrom 0 former ++
          ((former.length, fact) :: factsFrom (former.length + 1) latter) := by
        rw [shows.facts_eq, factsFrom_append, factsFrom, Option.bind_some, isFact, Nat.zero_add]
        rfl
      refine ⟨former ++ none :: latter, ?_, ?_⟩
      · have index : draft.facts.findIdx? (fun fact => pattern.matches fact.2) =
            some (factsFrom 0 former).length := by
          rw [facts, List.findIdx?_append, findIdx?_factsFrom unmatched, List.findIdx?_cons]
          simp [matched]
        have entry : draft.facts[(factsFrom 0 former).length]? = some (former.length, fact) := by
          simp [facts]
        simp only [Draft.removeFact, index, entry]
        constructor
        · simp [shows.lines_eq]
        · simp [facts, factsFrom_append, factsFrom, List.eraseIdx_append]
      · have gone : (some line :: latter).filterMap id = line :: latter.filterMap id := rfl
        rw [List.filterMap_append, List.filterMap_append, gone, eraseP_filterMap unmatched,
          List.eraseP_cons_of_pos states]
        rfl

theorem Shows.step (shows : draft.Shows slots) (entry : Entry) (number : Nat) :
    ∃ left, (draft.step entry).Shows left ∧
      left.filterMap id = replayStep (slots.filterMap id) (entry, number) := by
  cases entry with
  | clause text => exact ⟨_, shows.addLine number text, by simp [replayStep, entryLine?]⟩
  | library name => exact ⟨_, shows.addLine number _, by simp [replayStep, entryLine?]⟩
  | asserted fact => exact ⟨_, shows.addFact number fact, by simp [replayStep, entryLine?]⟩
  | retracted text =>
      cases read : Term.parse text with
      | ok pattern =>
          simp only [Draft.step, replayStep, read]
          exact shows.removeFact pattern
      | error cause =>
          simp only [Draft.step, replayStep, read]
          exact ⟨slots, shows, rfl⟩

theorem shows_foldl (log : List Entry) :
    ∃ slots, (log.foldl Draft.step ⟨[], []⟩).Shows slots ∧ slots.filterMap id = replay log := by
  induction log using List.reverseRecOn with
  | nil => exact ⟨[], shows_empty, rfl⟩
  | append_singleton log entry induction =>
      obtain ⟨slots, shows, left⟩ := induction
      obtain ⟨after, showsAfter, leftAfter⟩ := shows.step entry log.length
      rw [List.foldl_append, replay_concat, ← left]
      exact ⟨after, showsAfter, leftAfter⟩

end Draft

theorem problogLines_eq_replay (theory : Theory) :
    theory.problogLines = (replay theory.entries).map Line.text := by
  obtain ⟨slots, shows, left⟩ := Draft.shows_foldl theory.entries
  rw [problogLines, shows.lines_eq, ← left, List.filterMap_map, List.map_filterMap]
  rfl

/-! The lines of a log. -/

/-- Lines of a log in its order, each as its entry writes it. -/
structure Written (log : List Entry) (lines : List Line) : Prop where
  ordered : lines.Pairwise fun first second => first.number < second.number
  written : ∀ line ∈ lines, ∃ entry, log[line.number]? = some entry ∧
    entryLine? line.number entry = some line

/-- What the retraction with a number does to the lines: nothing, or it takes away the first line
that states a fact its pattern matches, which an earlier entry asserted. -/
inductive Retracts (number : Nat) (text : String) : List Line → List Line → Prop
  | unreadable {lines : List Line} {cause : ReadError} (refused : Term.parse text = .error cause) :
      Retracts number text lines lines
  | unmatched {lines : List Line} {pattern : Term} (read : Term.parse text = .ok pattern)
      (none : ∀ line ∈ lines, ∀ fact, line.fact? = some fact → pattern.matches fact = false) :
      Retracts number text lines lines
  | removed {former latter : List Line} {line : Line} {fact pattern : Term}
      (read : Term.parse text = .ok pattern) (states : line.fact? = some fact)
      (matched : pattern.matches fact = true) (before : line.number < number)
      (first : ∀ line ∈ former, ∀ fact, line.fact? = some fact → pattern.matches fact = false) :
      Retracts number text (former ++ line :: latter) (former ++ latter)

variable {log : List Entry} {lines : List Line}

theorem Written.number_lt (isWritten : Written log lines) {line : Line} (member : line ∈ lines) :
    line.number < log.length := by
  obtain ⟨entry, found, _⟩ := isWritten.written line member
  exact (List.getElem?_eq_some_iff.mp found).1

theorem Written.concat (isWritten : Written log lines) (entry : Entry) :
    Written (log ++ [entry]) lines := by
  refine ⟨isWritten.ordered, ?_⟩
  intro line member
  obtain ⟨former, found, writes⟩ := isWritten.written line member
  refine ⟨former, ?_, writes⟩
  rw [List.getElem?_append_left (isWritten.number_lt member)]
  exact found

theorem Written.add (isWritten : Written log lines) (entry : Entry) :
    Written (log ++ [entry]) (lines ++ (entryLine? log.length entry).toList) := by
  have kept := isWritten.concat entry
  cases writes : entryLine? log.length entry with
  | none => simpa using kept
  | some line =>
      have number : line.number = log.length := by
        cases entry <;> cases writes <;> rfl
      constructor
      · refine List.pairwise_append.mpr ⟨kept.ordered, List.pairwise_singleton _ _, ?_⟩
        intro first member second last
        rw [List.mem_singleton.mp last, number]
        exact isWritten.number_lt member
      · intro other member
        rcases List.mem_append.mp member with old | new
        · exact kept.written other old
        · refine ⟨entry, ?_, ?_⟩
          · rw [List.mem_singleton.mp new, number, List.getElem?_concat_length]
          · rw [List.mem_singleton.mp new, number]
            exact writes

theorem Written.eraseP (isWritten : Written log lines) (p : Line → Bool) :
    Written log (lines.eraseP p) :=
  ⟨isWritten.ordered.sublist List.eraseP_sublist,
    fun line member => isWritten.written line (List.mem_of_mem_eraseP member)⟩

theorem written_replay (log : List Entry) : Written log (replay log) := by
  induction log using List.reverseRecOn with
  | nil => exact ⟨.nil, nofun⟩
  | append_singleton log entry induction =>
      cases entry with
      | retracted text =>
          cases read : Term.parse text with
          | ok pattern =>
              rw [replay_retracted read]
              exact (induction.concat _).eraseP _
          | error cause =>
              rw [replay_unreadable read]
              exact induction.concat _
      | _ =>
          rw [replay_concat]
          exact induction.add _

theorem Line.isMatched_eq_false_iff {line : Line} {pattern : Term} :
    line.isMatched pattern = false ↔
      ∀ fact, line.fact? = some fact → pattern.matches fact = false := by
  cases isFact : line.fact? <;> simp [Line.isMatched, isFact]

theorem retracts_replay (log : List Entry) (text : String) :
    Retracts log.length text (replay log) (replay (log ++ [.retracted text])) := by
  cases read : Term.parse text with
  | error cause =>
      rw [replay_unreadable read]
      exact .unreadable read
  | ok pattern =>
      rw [replay_retracted read]
      by_cases found : ∃ line ∈ replay log, line.isMatched pattern = true
      · obtain ⟨matching, member, isMatched⟩ := found
        obtain ⟨line, former, latter, earlier, first, whole, left⟩ :=
          List.exists_of_eraseP member isMatched
        obtain ⟨fact, states, matched⟩ := (Option.any_eq_true _ _).mp first
        have before : line.number < log.length :=
          (written_replay log).number_lt (by rw [whole]; simp)
        rw [left, whole]
        exact .removed read states matched before fun line member =>
          Line.isMatched_eq_false_iff.mp (Bool.eq_false_iff.mpr (earlier line member))
      · have none : ∀ line ∈ replay log, ¬line.isMatched pattern = true :=
          fun line member isMatched => found ⟨line, member, isMatched⟩
        rw [List.eraseP_of_forall_not none]
        exact .unmatched read fun line member =>
          Line.isMatched_eq_false_iff.mp (Bool.eq_false_iff.mpr (none line member))

/-- The script for ProbLog holds the lines that the replay of the log leaves, each ended by a line
feed. They stand in the order of the log, and a retraction takes at most one line away, that of an
earlier assertion. -/
theorem problogScript_eq_replay (theory : Theory) :
    theory.problogLines = (replay theory.entries).map Line.text ∧
      theory.problogScript =
        String.join ((replay theory.entries).map fun line => line.text ++ "\n") ∧
      Written theory.entries (replay theory.entries) ∧
      ∀ log text, Retracts log.length text (replay log) (replay (log ++ [.retracted text])) := by
  have lines := problogLines_eq_replay theory
  refine ⟨lines, ?_, written_replay theory.entries, retracts_replay⟩
  rw [problogScript, ofLines, lines, List.map_map]
  rfl

/-- Of two equal facts the earlier one is taken away, and a retraction that cannot be read takes
none away. -/
theorem problogScript_eq_replay_edges :
    let edge (first second : String) : Term := .compound "edge" [.atom first, .atom second]
    let theory : Theory := ⟨[.asserted (edge "a" "b"), .clause "p(X) :- edge(X, _).",
      .asserted (edge "a" "b"), .library "lists", .asserted (edge "b" "it's"),
      .retracted "edge(a, _)", .retracted "edge("], [⟨"edge", 2⟩], [⟨"edge", 2⟩]⟩
    theory.problogScript =
      "p(X) :- edge(X, _).\nedge(a,b).\n:- use_module(library(lists)).\n" ++
        "edge(b,'it\\'s').\n" := by
  intro edge theory
  rw [(problogScript_eq_replay theory).2.1]
  decide +kernel

end HornQuery.Theory
