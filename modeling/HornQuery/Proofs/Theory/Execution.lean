import HornQuery.Proofs.Term.Equality
import HornQuery.Proofs.Term.Instances
import HornQuery.Proofs.Theory.Loading
import HornQuery.Proofs.Theory.Log
import HornQuery.Proofs.Theory.Replay

namespace HornQuery

namespace Theory

/-- Ground facts that are compared as data. -/
def IsDatum (fact : Term) : Prop :=
  fact.Regular ∧ fact.occurrences = []

/-- An assertion of a datum, or a retraction of a pattern for which matching finds the data that
may be removed. -/
def Settles (removable : Term → Term → Prop) : Entry → Prop
  | .asserted fact => IsDatum fact
  | .retracted text => ∃ pattern, Term.parse text = .ok pattern ∧
      ∀ fact, IsDatum fact → (pattern.matches fact = true ↔ removable pattern fact)
  | _ => False

def entryCommand? : Entry → Option Term
  | .asserted fact => some (command "assertz" fact)
  | .retracted text => (Term.parse text).toOption.map (command "retract")
  | _ => none

/-- The facts after one more entry, where those are removed that matching finds. -/
def remaining (facts : List Term) : Entry → List Term
  | .asserted fact => facts ++ [fact]
  | .retracted text =>
      match Term.parse text with
      | .ok pattern => facts.eraseP pattern.matches
      | .error _ => facts
  | _ => facts

section

variable {removable : Term → Term → Prop} {facts after : List Term}

theorem remaining_retracted {text : String} {pattern : Term}
    (read : Term.parse text = .ok pattern) :
    remaining facts (.retracted text) = facts.eraseP pattern.matches := by
  rw [remaining, read]

theorem executes_retraction_iff {pattern : Term}
    (found : ∀ fact ∈ facts, (pattern.matches fact = true ↔ removable pattern fact)) :
    Executes removable (some (command "retract" pattern)) facts after ↔
      after = facts.eraseP pattern.matches := by
  constructor
  · intro executes
    rcases executes_retraction_cases executes with
      ⟨former, fact, latter, rfl, rfl, removed, first⟩ | ⟨rfl, none⟩
    · have spared : ∀ earlier ∈ former, ¬pattern.matches earlier = true :=
        fun earlier member matched =>
          first earlier member ((found _ (List.mem_append_left _ member)).mp matched)
      have matched := (found fact (by simp)).mpr removed
      rw [List.eraseP_append_right _ spared, List.eraseP_cons_of_pos matched]
    · exact (List.eraseP_of_forall_not fun fact member matched =>
        none fact member ((found fact member).mp matched)).symm
  · rintro rfl
    by_cases matching : ∃ fact ∈ facts, pattern.matches fact = true
    · obtain ⟨some, member, matched⟩ := matching
      obtain ⟨fact, former, latter, spared, first, whole, left⟩ :=
        List.exists_of_eraseP member matched
      rw [left]
      rw [whole] at found ⊢
      refine .retracted arrow_mem_directiveNames ((found fact (by simp)).mp first) ?_
      intro earlier inside removed
      exact spared earlier inside ((found _ (List.mem_append_left _ inside)).mpr removed)
    · have spared : ∀ fact ∈ facts, ¬pattern.matches fact = true :=
        fun fact member matched => matching ⟨fact, member, matched⟩
      rw [List.eraseP_of_forall_not spared]
      exact .missed arrow_mem_directiveNames fun fact member removed =>
        spared fact member ((found fact member).mpr removed)

theorem executes_entry_iff {entry : Entry} (settles : Settles removable entry)
    (data : ∀ fact ∈ facts, IsDatum fact) :
    Executes removable (entryCommand? entry) facts after ↔ after = remaining facts entry := by
  cases entry with
  | asserted fact => exact executes_assertion_iff
  | retracted text =>
      obtain ⟨pattern, read, found⟩ := settles
      rw [remaining_retracted read, entryCommand?, read]
      exact executes_retraction_iff fun fact member => found fact (data fact member)
  | _ => exact settles.elim

theorem isDatum_of_mem_remaining {entry : Entry} (settles : Settles removable entry)
    (data : ∀ fact ∈ facts, IsDatum fact) : ∀ fact ∈ remaining facts entry, IsDatum fact := by
  cases entry with
  | clause text => exact settles.elim
  | library name => exact settles.elim
  | asserted fact =>
      intro other member
      rcases List.mem_append.mp member with old | new
      · exact data other old
      · rw [List.mem_singleton.mp new]
        exact settles
  | retracted text =>
      obtain ⟨pattern, read, _⟩ := settles
      rw [remaining_retracted read]
      exact fun fact member => data fact (List.mem_of_mem_eraseP member)

theorem executed_iff {log : List Entry} (settles : ∀ entry ∈ log, Settles removable entry)
    (data : ∀ fact ∈ facts, IsDatum fact) :
    Executed removable (log.map entryCommand?) facts after ↔ after = log.foldl remaining facts := by
  induction log generalizing facts with
  | nil =>
      constructor
      · rintro ⟨⟩
        rfl
      · rintro rfl
        exact .nil
  | cons entry log induction =>
      obtain ⟨first, others⟩ := List.forall_mem_cons.mp settles
      have later := induction others (isDatum_of_mem_remaining first data)
      constructor
      · rintro (_ | ⟨step, rest⟩)
        rw [(executes_entry_iff first data).mp step] at rest
        exact later.mp rest
      · intro same
        exact .cons ((executes_entry_iff first data).mpr rfl) (later.mpr same)

/-! The lines of a log that only asserts and retracts. -/

def factLine (numbered : Nat × Term) : Line :=
  ⟨numbered.1, numbered.2.clauseText ++ ".", some numbered.2⟩

theorem exists_factLines {log : List Entry} (settles : ∀ entry ∈ log, Settles removable entry) :
    ∃ numbered : List (Nat × Term), replay log = numbered.map factLine ∧
      numbered.map Prod.snd = log.foldl remaining [] := by
  induction log using List.reverseRecOn with
  | nil => exact ⟨[], rfl, rfl⟩
  | append_singleton log entry induction =>
      obtain ⟨numbered, lines, left⟩ :=
        induction fun entry member => settles entry (List.mem_append_left _ member)
      have last := settles entry (by simp)
      rw [List.foldl_append, ← left]
      cases entry with
      | clause text => exact last.elim
      | library name => exact last.elim
      | asserted fact =>
          refine ⟨numbered ++ [(log.length, fact)], ?_, ?_⟩
          · rw [replay_concat, lines, List.map_append]
            rfl
          · rw [List.map_append]
            rfl
      | retracted text =>
          obtain ⟨pattern, read, _⟩ := last
          refine ⟨numbered.eraseP fun fact => pattern.matches fact.2, ?_, ?_⟩
          · rw [replay_retracted read, lines, List.eraseP_map]
            rfl
          · rw [List.foldl_cons, List.foldl_nil, remaining_retracted read, List.eraseP_map]
            rfl

end

/-! Facts and patterns. -/

/-- A ground fact that is read from its text, or a pattern whose text can be put between brackets.
Both are compared as data. -/
def IsFactual : Entry → Prop
  | .asserted fact => fact.Readable ∧ fact.rule? = none ∧ IsDatum fact
  | .retracted text =>
      Goal.StandsBetween text ∧ ∃ pattern, Term.parse text = .ok pattern ∧ pattern.Regular
  | _ => False

def IsSimple : Entry → Prop
  | .retracted text => ∀ pattern, Term.parse text = .ok pattern → pattern.IsLinear
  | _ => True

namespace IsFactual

variable {entry : Entry}

theorem isLine (factual : IsFactual entry) : IsLine (swiLine entry) (entryCommand? entry) := by
  cases entry with
  | asserted fact => exact isLine_fact factual.1 factual.2.1
  | retracted text =>
      obtain ⟨stands, pattern, read, _⟩ := factual
      rw [entryCommand?, read]
      exact isLine_retraction stands read
  | _ => exact factual.elim

theorem settles (factual : IsFactual entry) : Settles Term.IsLooseInstance entry := by
  cases entry with
  | asserted fact => exact factual.2.2
  | retracted text =>
      obtain ⟨_, pattern, read, regular⟩ := factual
      exact ⟨pattern, read, fun fact datum => Term.matches_iff regular datum.1 datum.2⟩
  | _ => exact factual.elim

theorem settles_of_isSimple (factual : IsFactual entry) (simple : IsSimple entry) :
    Settles Term.IsInstance entry := by
  cases entry with
  | asserted fact => exact factual.2.2
  | retracted text =>
      obtain ⟨_, pattern, read, regular⟩ := factual
      exact ⟨pattern, read, fun fact datum => (Term.matches_iff regular datum.1 datum.2).trans
        ((simple pattern read).isInstance_iff fact).symm⟩
  | _ => exact factual.elim

end IsFactual

/-- The script for ProbLog states the facts that are left after the script for SWI-Prolog has been
loaded, where a retraction removes the earliest fact that its pattern becomes when each occurrence
of a variable is replaced; if no pattern uses a name twice, the earliest that it becomes under one
substitution. -/
theorem problogScript_eq_executed {theory : Theory}
    (factual : ∀ entry ∈ theory.entries, IsFactual entry)
    (small : ∀ indicator ∈ theory.dynamic, indicator.arity ≤ Term.integerMax) :
    ∃ left, theory.problogScript = String.join (left.map fun fact => fact.clauseText ++ ".\n") ∧
      (∀ facts, Leaves Term.IsLooseInstance theory.swiScript facts ↔ facts = left) ∧
      ((∀ entry ∈ theory.entries, IsSimple entry) →
        ∀ facts, Leaves Term.IsInstance theory.swiScript facts ↔ facts = left) := by
  obtain ⟨numbered, lines, left⟩ :=
    exists_factLines fun entry member => (factual entry member).settles
  have commands : List.Forall₂ IsLine (theory.entries.map swiLine)
      (theory.entries.map entryCommand?) := by
    rw [List.forall₂_map_left_iff, List.forall₂_map_right_iff, List.forall₂_same]
    exact fun entry member => (factual entry member).isLine
  have none : ∀ fact ∈ [], IsDatum fact := List.forall_mem_nil _
  refine ⟨theory.entries.foldl remaining [], ?_, ?_, ?_⟩
  · rw [problogScript, ofLines, problogLines_eq_replay, lines, ← left]
    simp only [List.map_map, Function.comp_def, factLine, String.append_assoc]
    rfl
  · intro facts
    rw [leaves_swiScript_iff small commands]
    exact executed_iff (fun entry member => (factual entry member).settles) none
  · intro simple facts
    rw [leaves_swiScript_iff small commands]
    exact executed_iff (fun entry member =>
      (factual entry member).settles_of_isSimple (simple entry member)) none

/-- A fact with a list in it, a pattern with an anonymous variable at two places, and a retraction
that finds nothing any more. -/
theorem problogScript_eq_executed_paths :
    let path (first : String) (items : List Term) : Term :=
      .compound "path" [.atom first, .list items]
    let theory : Theory :=
      ⟨[.asserted (path "a" [.atom "b", .atom "c"]), .asserted (path "a" []),
        .retracted "path(_, [b, _])", .retracted "path(X, [b, Y])"], [⟨"path", 2⟩], [⟨"path", 2⟩]⟩
    ((∀ entry ∈ theory.entries, IsFactual entry) ∧
        (∀ indicator ∈ theory.dynamic, indicator.arity ≤ Term.integerMax) ∧
        ∀ entry ∈ theory.entries, IsSimple entry) ∧
      ∃ left, theory.problogScript = String.join (left.map fun fact => fact.clauseText ++ ".\n") ∧
        (∀ facts, Leaves Term.IsLooseInstance theory.swiScript facts ↔ facts = left) ∧
        ∀ facts, Leaves Term.IsInstance theory.swiScript facts ↔ facts = left := by
  intro path theory
  have anonymous : Term.parse "path(_, [b, _])" =
      .ok (.compound "path" [.var "_", .list [.atom "b", .var "_"]]) :=
    (Term.givesTerm_iff (by decide) _).mp (by decide +kernel)
  have named : Term.parse "path(X, [b, Y])" =
      .ok (.compound "path" [.var "X", .list [.atom "b", .var "Y"]]) :=
    (Term.givesTerm_iff (by decide) _).mp (by decide +kernel)
  have regular : ∀ first items, first.Regular → (∀ item ∈ items, item.Regular) →
      (Term.compound "path" [first, .list items]).Regular := by
    intro first items isFirst areItems
    refine .compound (fun _ _ isCell => absurd isCell (by decide)) ?_
    exact List.forall_mem_cons.mpr ⟨isFirst, List.forall_mem_singleton.mpr (.list areItems)⟩
  have asserted : ∀ first items, first ≠ "[]" → (∀ item ∈ items, item.Readable) →
      (∀ item ∈ items, item.Regular) → Term.occurrencesAll items = [] →
      IsFactual (.asserted (path first items)) := by
    intro first items proper areReadable areRegular ground
    refine ⟨.compound (by simp) (by simp [Term.listCell]) ?_, rfl,
      regular _ _ (.atom first) areRegular, ?_⟩
    · exact List.forall_mem_cons.mpr
        ⟨.atom proper, List.forall_mem_singleton.mpr (.list areReadable)⟩
    · simp [path, Term.occurrences, Term.occurrencesAll, ground]
  have factual : ∀ entry ∈ theory.entries, IsFactual entry := by
    simp only [theory, List.forall_mem_cons]
    refine ⟨asserted _ _ (by decide) ?_ ?_ rfl, asserted _ _ (by decide) nofun nofun rfl,
      ⟨by decide +kernel, _, anonymous, regular _ _ (.var _) ?_⟩,
      ⟨by decide +kernel, _, named, regular _ _ (.var _) ?_⟩, nofun⟩
    · simp [Term.Readable.atom]
    · simp [Term.Regular.atom]
    · simp [Term.Regular.atom, Term.Regular.var]
    · simp [Term.Regular.atom, Term.Regular.var]
  have small : ∀ indicator ∈ theory.dynamic, indicator.arity ≤ Term.integerMax := by
    simp only [theory, List.forall_mem_singleton]
    decide
  have simple : ∀ entry ∈ theory.entries, IsSimple entry := by
    simp only [theory, List.forall_mem_cons]
    refine ⟨trivial, trivial, ?_, ?_, nofun⟩
    · intro pattern read
      cases anonymous.symm.trans read
      unfold Term.IsLinear
      decide
    · intro pattern read
      cases named.symm.trans read
      unfold Term.IsLinear
      decide
  obtain ⟨left, script, loose, executed⟩ := problogScript_eq_executed factual small
  exact ⟨⟨factual, small, simple⟩, left, script, loose, executed simple⟩

/-! Where the scripts part. -/

/-- A ground fact is asserted and a text retracted that can be read, and then the script for
SWI-Prolog leaves something else than the script for ProbLog states. -/
def Disagrees (fact text : String) : Prop :=
  let theory := run [.assertFact fact, .retractFact text]
  (∃ term, theory.entries = [.asserted term, .retracted text] ∧ term.occurrences = []) ∧
    (∃ pattern, Term.parse text = .ok pattern) ∧
    ∃ left, Leaves Term.IsInstance theory.swiScript left ∧
      theory.problogScript ≠ String.join (left.map fun fact => fact.clauseText ++ ".\n")

section

variable {fact text : String} {term stated pattern : Term} {indicator : Indicator}

theorem run_pair (read : Term.parse fact = .ok term)
    (asserted : term.assertedPredicate = .ok indicator)
    (ends : withoutClauseEnd fact = fact ∧ withoutClauseEnd text = text) :
    run [.assertFact fact, .retractFact text] =
      ⟨[.asserted term, .retracted text], [indicator], [indicator]⟩ := by
  have done : assertFact fact .empty =
      .ok () ((Theory.empty.declareDynamic indicator).append (.asserted term)) := by
    unfold assertFact
    simp only [ends.1, read, asserted]
    rfl
  simp only [run, List.foldl_cons, List.foldl_nil, perform, done, retractFact, ends.2]
  rfl

theorem problogScript_pair (read : Term.parse text = .ok pattern)
    (indicators declared : List Indicator) :
    (⟨[.asserted term, .retracted text], indicators, declared⟩ : Theory).problogScript =
      if pattern.matches term then "" else term.clauseText ++ ".\n" := by
  have left : replay ([.asserted term] ++ [.retracted text]) =
      [factLine (0, term)].eraseP (Line.isMatched pattern) := replay_retracted read
  rw [problogScript, problogLines_eq_replay]
  refine (congrArg (fun lines => ofLines (lines.map Line.text)) left).trans ?_
  have matched : Line.isMatched pattern (factLine (0, term)) = pattern.matches term := rfl
  rw [List.eraseP_cons, matched]
  cases pattern.matches term with
  | true => rfl
  | false => simp [ofLines, factLine, String.append_assoc]

theorem disagrees_of_leaves (left : List Term) (read : Term.parse fact = .ok term)
    (asserted : term.assertedPredicate = .ok indicator) (ground : term.occurrences = [])
    (readText : Term.parse text = .ok pattern)
    (ends : withoutClauseEnd fact = fact ∧ withoutClauseEnd text = text)
    (leaves : Leaves Term.IsInstance
      (⟨[.asserted term, .retracted text], [indicator], [indicator]⟩ : Theory).swiScript left)
    (differ : pattern.matches term = true ↔ left ≠ []) : Disagrees fact text := by
  unfold Disagrees
  rw [run_pair read asserted ends]
  refine ⟨⟨term, rfl, ground⟩, ⟨pattern, readText⟩, left, leaves, ?_⟩
  rw [problogScript_pair readText]
  cases left with
  | nil => simp [differ]
  | cons fact left =>
      have matched : pattern.matches term = true := differ.mpr (List.cons_ne_nil fact left)
      simp [matched]

/-- The assertion states what the text of the fact is read as, and the retraction takes that away if
it is an instance. -/
theorem disagrees (read : Term.parse fact = .ok term)
    (asserted : term.assertedPredicate = .ok indicator) (ground : term.occurrences = [])
    (small : indicator.arity ≤ Term.integerMax) (readFact : Term.parse term.clauseText = .ok stated)
    (readText : Term.parse text = .ok pattern)
    (ends : withoutClauseEnd fact = fact ∧ withoutClauseEnd text = text)
    (stand : Goal.StandsBetween term.clauseText ∧ Goal.StandsBetween text)
    (differ : pattern.matches term = true ↔ ¬Term.IsInstance pattern stated) :
    Disagrees fact text := by
  obtain ⟨depth, writes⟩ := exists_writes stand.1 readFact
  have lines : List.Forall₂ IsLine ([.asserted term, .retracted text].map swiLine)
      [some (command "assertz" stated), some (command "retract" pattern)] :=
    .cons (isLine_assertion writes) (.cons (isLine_retraction stand.2 readText) .nil)
  have loaded : ∀ left, Executed Term.IsInstance [some (command "retract" pattern)] [stated] left →
      Leaves Term.IsInstance
        (⟨[.asserted term, .retracted text], [indicator], [indicator]⟩ : Theory).swiScript left :=
    fun left retracts => Iff.mpr (leaves_swiScript_iff (List.forall_mem_singleton.mpr small) lines)
      (.cons (executes_assertion_iff.mpr rfl) retracts)
  by_cases found : Term.IsInstance pattern stated
  · have retracts : Executed Term.IsInstance [some (command "retract" pattern)] ([] ++ stated :: [])
        ([] ++ []) :=
      .cons (.retracted arrow_mem_directiveNames found (List.forall_mem_nil _)) .nil
    exact disagrees_of_leaves _ read asserted ground readText ends (loaded _ retracts)
      (differ.trans (iff_of_false (not_not_intro found) (not_not_intro rfl)))
  · have retracts : Executed Term.IsInstance [some (command "retract" pattern)] [stated] [stated] :=
      .cons (.missed arrow_mem_directiveNames (List.forall_mem_singleton.mpr found)) .nil
    exact disagrees_of_leaves _ read asserted ground readText ends (loaded _ retracts)
      (differ.trans (iff_of_true found (List.cons_ne_nil stated [])))

end

def argumentBits? : Except ReadError Term → Option (String × UInt64)
  | .ok (.compound functor [.float value]) => some (functor, value.toBits)
  | _ => none

theorem eq_ok_of_argumentBits? {result : Except ReadError Term} {functor : String} {value : Float}
    (found : argumentBits? result = some (functor, value.toBits)) :
    result = .ok (.compound functor [.float value]) := by
  unfold argumentBits? at found
  split at found
  · obtain ⟨rfl, bits⟩ := Prod.mk.inj (Option.some.inj found)
    rw [← Number.ofBits_toBits value, ← bits, Number.ofBits_toBits]
  · cases found

theorem disagrees_repeated : Disagrees "f(1, 2)" "f(X, X)" := by
  have read : ∀ text ∈ ["f(1, 2)", "f(1,2)"],
      Term.parse text = .ok (.compound "f" [.integer 1, .integer 2]) := fun text member =>
    (Term.givesTerm_iff (by decide) _).mp (by revert text; decide +kernel)
  have readText : Term.parse "f(X, X)" = .ok (.compound "f" [.var "X", .var "X"]) :=
    (Term.givesTerm_iff (by decide) _).mp (by decide +kernel)
  refine disagrees (read _ (by simp)) rfl rfl (by decide) (read _ (by decide +kernel)) readText
    (by decide +kernel) (by decide +kernel) (iff_of_true (by decide) ?_)
  rintro ⟨assignment, -, first, second, -⟩
  have named : "X" ≠ "_" := by decide
  cases (first.resolve_left named).trans (second.resolve_left named).symm

theorem disagrees_tail : Disagrees "p([a, b])" "p([a|T])" := by
  have read : ∀ text ∈ ["p([a, b])", "p([a,b])"],
      Term.parse text = .ok (.compound "p" [.list [.atom "a", .atom "b"]]) := fun text member =>
    (Term.givesTerm_iff (by decide) _).mp (by revert text; decide +kernel)
  have readText : Term.parse "p([a|T])" =
      .ok (.compound "p" [.compound Term.listCell [.atom "a", .var "T"]]) :=
    (Term.givesTerm_iff (by decide) _).mp (by decide +kernel)
  refine disagrees (read _ (by simp)) rfl rfl (by decide) (read _ (by decide +kernel)) readText
    (by decide +kernel) (by decide +kernel)
    (iff_of_false (by decide) (not_not_intro ⟨fun _ => Term.chain [.atom "b"], ?_⟩))
  exact ⟨rfl, ⟨rfl, rfl, .inr rfl, trivial⟩, trivial⟩

theorem disagrees_negativeZero : Disagrees "f(0.0)" "f(-0.0)" := by
  have read : Term.parse "f(0.0)" = .ok (.compound "f" [.float (Number.ofMagnitude false 0)]) :=
    eq_ok_of_argumentBits? (by decide +kernel)
  have readText : Term.parse "f(-0.0)" = .ok (.compound "f" [.float Number.negativeZero]) :=
    eq_ok_of_argumentBits? (by decide +kernel)
  have written :
      Term.clauseText (.compound "f" [.float (Number.ofMagnitude false 0)]) = "f(0.0)" := by
    decide +kernel
  refine disagrees read rfl rfl (by decide) (written ▸ read) readText
    (by decide +kernel) (by decide +kernel) (iff_of_true (by decide +kernel) ?_)
  rintro ⟨assignment, -, same, -⟩
  exact absurd (congrArg Float.toBits same) (by decide +kernel)

theorem disagrees_notANumber : Disagrees "f(1.5NaN)" "f(1.5NaN)" := by
  have read : Term.parse "f(1.5NaN)" = .ok (.compound "f" [.float Number.notANumber]) :=
    eq_ok_of_argumentBits? (by decide +kernel)
  have written : Term.clauseText (.compound "f" [.float Number.notANumber]) = "f(1.5NaN)" := by
    decide +kernel
  refine disagrees read rfl rfl (by decide) (written ▸ read) read (by decide +kernel)
    (by decide +kernel)
    (iff_of_false (by decide +kernel) (not_not_intro ⟨fun _ => .atom "a", ?_⟩))
  exact ⟨rfl, rfl, trivial⟩

theorem disagrees_emptyList : Disagrees "f('[]')" "f([])" := by
  have read : Term.parse "f('[]')" = .ok (.compound "f" [.atom "[]"]) :=
    (Term.givesTerm_iff (by decide) _).mp (by decide +kernel)
  have readText : Term.parse "f([])" = .ok (.compound "f" [.list []]) :=
    (Term.givesTerm_iff (by decide) _).mp (by decide +kernel)
  have written : Term.clauseText (.compound "f" [.atom "[]"]) = "f([])" := by decide +kernel
  refine disagrees read rfl rfl (by decide) (written ▸ readText) readText (by decide +kernel)
    (by decide +kernel)
    (iff_of_false (by decide +kernel) (not_not_intro ⟨fun _ => .atom "a", ?_⟩))
  exact ⟨rfl, trivial, trivial⟩

/-- A comment at the end of a text takes the rest of its line, with the point of the directive. -/
theorem textReads_commented :
    TextReads (ofLines [swiLine (.retracted "f(a) % note")]).toList [] := by
  refine textReads_unfinished fun position => ?_
  have kinds : (Token.scanFrom position
      (ofLines [swiLine (.retracted "f(a) % note")]).toList).map (List.map Token.kind) =
      .ok [.name ":-", .name "retract", .punctuation '(', .punctuation '(', .name "f",
        .punctuation '(', .name "a", .punctuation ')'] := by
    cbv
  generalize Token.scanFrom position _ = scanned at kinds ⊢
  cases scanned with
  | error cause => cases kinds
  | ok tokens =>
      refine ⟨tokens, rfl, fun token member ends => ?_⟩
      have inside := List.mem_map_of_mem (f := Token.kind) member
      rw [Except.ok.inj kinds, ends] at inside
      simp at inside

theorem disagrees_commented : Disagrees "f(a)" "f(a) % note" := by
  have read : Term.parse "f(a)" = .ok (.compound "f" [.atom "a"]) :=
    (Term.givesTerm_iff (by decide) _).mp (by decide +kernel)
  have readText : Term.parse "f(a) % note" = .ok (.compound "f" [.atom "a"]) :=
    (Term.givesTerm_iff (by decide) _).mp (by decide +kernel)
  obtain ⟨clause, idle, declared⟩ :=
    exists_isLine_dynamicDirective ⟨"f", 1⟩ (by decide)
  have asserted : IsLine (swiLine (.asserted (.compound "f" [.atom "a"]))) _ :=
    isLine_fact (.compound (by simp) (by simp [Term.listCell]) (by simp [Term.Readable.atom])) rfl
  have reads := textReads_commented.lines (.cons declared (.cons asserted .nil))
  have script : (⟨[.asserted (.compound "f" [.atom "a"]), .retracted "f(a) % note"], [⟨"f", 1⟩],
      [⟨"f", 1⟩]⟩ : Theory).swiScript.toList =
      (ofLines [dynamicDirective ⟨"f", 1⟩, swiLine (.asserted (.compound "f" [.atom "a"]))]).toList ++
        (ofLines [swiLine (.retracted "f(a) % note")]).toList := by
    rw [← String.toList_append]
    rfl
  rw [← script] at reads
  refine disagrees_of_leaves [.compound "f" [.atom "a"]] read rfl rfl readText
    (by decide +kernel) (reads.scriptReads.leaves_iff.mpr ?_) (by decide)
  exact .cons (idle.executes_iff.mpr rfl) (.cons (executes_assertion_iff.mpr rfl) .nil)

/-- The scripts part where a name occurs twice in a pattern, where a pattern has a variable for the
tail of a list, where zeros have different signs, where a number is none, where an atom is read back
as the empty list, and where a text ends in a comment. -/
theorem not_problogScript_eq_executed :
    Disagrees "f(1, 2)" "f(X, X)" ∧ Disagrees "p([a, b])" "p([a|T])" ∧
      Disagrees "f(0.0)" "f(-0.0)" ∧ Disagrees "f(1.5NaN)" "f(1.5NaN)" ∧
      Disagrees "f('[]')" "f([])" ∧ Disagrees "f(a)" "f(a) % note" :=
  ⟨disagrees_repeated, disagrees_tail, disagrees_negativeZero, disagrees_notANumber,
    disagrees_emptyList, disagrees_commented⟩

end Theory

end HornQuery
