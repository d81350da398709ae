import HornQuery.Proofs.Text.Characters
import HornQuery.Term.Token.Scan

namespace HornQuery

theorem bind_eq_ok {α β : Type} {result : Except ReadError α} {next : α → Except ReadError β}
    {value : β} :
    result >>= next = .ok value ↔ ∃ found, result = .ok found ∧ next found = .ok value := by
  cases result with
  | error cause => simp [bind, Except.bind]
  | ok found => simp [bind, Except.bind]

namespace Token

open Text

def delimiters : List Char :=
  " ()[]\x7b\x7d,|".toList

/-- A text whose first character, if there is one, ends the token in front of it. -/
def Delimited (text : List Char) : Prop :=
  ∀ c ∈ text.head?, c ∈ delimiters

theorem delimited_nil : Delimited [] := by
  intro c member
  cases member

theorem delimited_cons {c : Char} (member : c ∈ delimiters) (rest : List Char) :
    Delimited (c :: rest) := by
  intro other found
  cases found
  exact member

/-- The characters that end a word, a quoted name or a number: a point would go on with a number
if digits followed it. -/
def enders : List Char :=
  delimiters ++ symbolCharacters.filter (· ≠ '.')

def Ended (text : List Char) : Prop :=
  ∀ c ∈ text.head?, c ∈ enders

theorem Delimited.ended {text : List Char} (delimited : Delimited text) : Ended text :=
  fun c found => List.mem_append_left _ (delimited c found)

theorem ended_nil : Ended [] :=
  delimited_nil.ended

theorem mem_enders_of_isSymbol {c : Char} (symbol : isSymbol c = true) (noPoint : c ≠ '.') :
    c ∈ enders := by
  apply List.mem_append_right
  rw [List.mem_filter]
  exact ⟨List.contains_iff_mem.mp symbol, by simpa using noPoint⟩

/-- A text that does not go on with the last token of the piece in front of it. -/
structure Parted (piece rest : List Char) : Prop where
  ended : Ended rest
  noSymbol : (∃ c ∈ piece.getLast?, isSymbol c = true) → ∀ c ∈ rest.head?, isSymbol c = false

theorem Delimited.parted {rest : List Char} (delimited : Delimited rest) (piece : List Char) :
    Parted piece rest := by
  have all : ∀ c ∈ delimiters, isSymbol c = false := forall_mem_of_all (by decide)
  exact ⟨delimited.ended, fun _ c found => all c (delimited c found)⟩

theorem takeWhile_append_of_stops {continues : Char → Bool} {word rest : List Char}
    (all : ∀ c ∈ word, continues c = true) (stops : ∀ c ∈ rest.head?, continues c = false) :
    (word ++ rest).takeWhile continues = word := by
  rw [List.takeWhile_append_of_pos all]
  cases rest with
  | nil => simp
  | cons c rest =>
      rw [List.takeWhile_cons_of_neg, List.append_nil]
      rw [stops c rfl]
      decide

/-! Layout. -/

theorem layoutLength_eq_zero {c : Char} {rest : List Char} (position : Nat)
    (visible : isBlank c = false) (comment : c ≠ '%')
    (opening : ¬(c = '/' ∧ rest.head? = some '*')) :
    layoutLength position (c :: rest) = .ok 0 := by
  rw [layoutLength]
  simp [visible, comment, opening]

def afterLayout : List Token → List Token
  | [] => []
  | token :: others => { token with layoutBefore := true } :: others

theorem layoutLength_of_le_toNat {c : Char} (letter : 0x41 ≤ c.toNat) (visible : isBlank c = false)
    (position : Nat) (rest : List Char) : layoutLength position (c :: rest) = .ok 0 := by
  apply layoutLength_eq_zero position visible
  · intro comment
    subst comment
    exact absurd letter (by decide)
  · intro opening
    rw [opening.1] at letter
    exact absurd letter (by decide)

theorem scanFrom_of_layout {position skipped : Nat} {text : List Char}
    (layout : layoutLength position text = .ok skipped) (none : text.drop skipped = []) :
    scanFrom position text = .ok [] := by
  rw [scanFrom, layout]
  simp only [bind, Except.bind]
  split
  case h_1 => rfl
  case h_2 c rest some =>
    rw [none] at some
    cases some

theorem scanFrom_of_token {position skipped start : Nat} {text rest : List Char} {c : Char}
    (layout : layoutLength position text = .ok skipped) (some : text.drop skipped = c :: rest)
    (starts : position + byteLength (text.take skipped) = start) :
    scanFrom position text = (do
      let (kind, more) ← scanOne start c rest
      let stop := start + c.utf8Size + byteLength (rest.take more)
      let others ← scanFrom stop (rest.drop more)
      .ok (⟨kind, start, stop, 0 < skipped⟩ :: others)) := by
  subst starts
  rw [scanFrom, layout]
  simp only [bind, Except.bind]
  split
  case h_1 none =>
    rw [some] at none
    cases none
  case h_2 other others same =>
    rw [some] at same
    cases same
    rfl

theorem scanFrom_nil (position : Nat) : scanFrom position [] = .ok [] :=
  scanFrom_of_layout (by rw [layoutLength]) List.drop_nil

theorem scanFrom_cons {position : Nat} {c : Char} {word rest : List Char} {kind : TokenKind}
    (layout : layoutLength position (c :: (word ++ rest)) = .ok 0)
    (found : scanOne position c (word ++ rest) = .ok (kind, word.length)) :
    ∃ token : Token, token.kind = kind ∧ token.layoutBefore = false ∧
      scanFrom position (c :: (word ++ rest)) =
        (scanFrom (position + byteLength (c :: word)) rest).map (token :: ·) := by
  refine ⟨⟨kind, position, position + c.utf8Size + byteLength word, false⟩, rfl, rfl, ?_⟩
  rw [scanFrom_of_token layout rfl rfl, List.take_zero, byteLength_nil, Nat.add_zero, found]
  simp only [bind, Except.bind, List.take_left', List.drop_left', byteLength_cons, Nat.add_assoc]
  rfl

/-- White space and comments of which none is left open: what follows is scanned as if they were
not there. -/
def Skips (gap : List Char) : Prop :=
  ∀ position rest, layoutLength position (gap ++ rest) =
    (layoutLength (position + byteLength gap) rest).map (gap.length + ·)

theorem skips_nil : Skips [] := by
  intro position rest
  rw [List.nil_append, byteLength_nil, Nat.add_zero]
  cases layoutLength position rest with
  | error cause => rfl
  | ok width => simp [Except.map]

theorem skips_append {first second : List Char} (before : Skips first) (after : Skips second) :
    Skips (first ++ second) := by
  intro position rest
  rw [List.append_assoc, before, after, byteLength_append, Nat.add_assoc]
  cases layoutLength (position + (byteLength first + byteLength second)) rest with
  | error cause => rfl
  | ok width => simp [Except.map, Nat.add_assoc]

theorem layoutLength_blank {c : Char} (blank : isBlank c = true) (position : Nat)
    (rest : List Char) : layoutLength position (c :: rest) =
      (layoutLength (position + c.utf8Size) rest).map (1 + ·) := by
  rw [layoutLength, if_pos blank]
  cases layoutLength (position + c.utf8Size) rest <;> rfl

theorem skips_blank {c : Char} (blank : isBlank c = true) : Skips [c] := by
  intro position rest
  rw [List.singleton_append, layoutLength_blank blank]
  rfl

theorem skips_blanks {gap : List Char} (blanks : ∀ c ∈ gap, isBlank c = true) : Skips gap := by
  induction gap with
  | nil => exact skips_nil
  | cons c gap induction =>
      exact skips_append (skips_blank (blanks c List.mem_cons_self))
        (induction fun d member => blanks d (List.mem_cons_of_mem c member))

theorem scanFrom_skips {gap : List Char} (skips : Skips gap) (some : gap ≠ []) (position : Nat)
    (text : List Char) : scanFrom position (gap ++ text) =
      (scanFrom (position + byteLength gap) text).map afterLayout := by
  have positive : 0 < gap.length := List.length_pos_iff.mpr some
  have skipped := skips position text
  cases layout : layoutLength (position + byteLength gap) text with
  | error cause =>
      rw [layout] at skipped
      rw [scanFrom, scanFrom, skipped, layout]
      rfl
  | ok width =>
      rw [layout] at skipped
      have left : (gap ++ text).drop (gap.length + width) = text.drop width :=
        List.drop_length_add_append width
      have start : position + byteLength ((gap ++ text).take (gap.length + width)) =
          position + byteLength gap + byteLength (text.take width) := by
        rw [List.take_length_add_append, byteLength_append, Nat.add_assoc]
      cases remains : text.drop width with
      | nil =>
          rw [scanFrom_of_layout skipped (left.trans remains), scanFrom_of_layout layout remains]
          rfl
      | cons c rest =>
          rw [scanFrom_of_token skipped (left.trans remains) start,
            scanFrom_of_token layout remains rfl]
          simp only [bind, Except.bind, Nat.add_pos_left positive, decide_true]
          cases scanOne _ c rest with
          | error cause => rfl
          | ok found =>
              simp only
              cases scanFrom _ (rest.drop found.2) <;> rfl

/-- Scanning a piece gives tokens with the stated property and leaves the text after it. -/
def Scans (piece rest : List Char) (spelled : List Token → Prop) : Prop :=
  ∀ position, ∃ tokens, spelled tokens ∧
    scanFrom position (piece ++ rest) =
      (scanFrom (position + byteLength piece) rest).map (tokens ++ ·)

namespace Scans

variable {left right piece rest : List Char} {first second spelled : List Token → Prop}

theorem append (before : Scans left (right ++ rest) first) (after : Scans right rest second)
    (joined : ∀ former latter, first former → second latter → spelled (former ++ latter)) :
    Scans (left ++ right) rest spelled := by
  intro position
  obtain ⟨former, isFirst, scannedLeft⟩ := before position
  obtain ⟨latter, isSecond, scannedRight⟩ := after (position + byteLength left)
  refine ⟨former ++ latter, joined former latter isFirst isSecond, ?_⟩
  rw [List.append_assoc, scannedLeft, scannedRight, byteLength_append, Nat.add_assoc]
  cases scanFrom (position + (byteLength left + byteLength right)) rest with
  | error cause => rfl
  | ok tokens => simp [Except.map]

theorem imp (scans : Scans piece rest first) (weaker : ∀ tokens, first tokens → second tokens) :
    Scans piece rest second := by
  intro position
  obtain ⟨tokens, isFirst, scanned⟩ := scans position
  exact ⟨tokens, weaker tokens isFirst, scanned⟩

theorem skips {gap : List Char} (scans : Scans piece rest first) (skips : Skips gap)
    (spaced : gap ≠ []) (some : ∀ tokens, first tokens → tokens ≠ []) :
    Scans (gap ++ piece) rest fun tokens =>
      ∃ others, first others ∧ tokens = afterLayout others := by
  intro position
  obtain ⟨tokens, isFirst, scanned⟩ := scans (position + byteLength gap)
  refine ⟨afterLayout tokens, ⟨tokens, isFirst, rfl⟩, ?_⟩
  rw [List.append_assoc, scanFrom_skips skips spaced, scanned, byteLength_append, Nat.add_assoc]
  obtain ⟨token, others, nonempty⟩ := List.exists_cons_of_ne_nil (some tokens isFirst)
  subst nonempty
  cases scanFrom (position + (byteLength gap + byteLength piece)) rest <;> rfl

theorem space (scans : Scans piece rest first) (some : ∀ tokens, first tokens → tokens ≠ []) :
    Scans (' ' :: piece) rest fun tokens =>
      ∃ others, first others ∧ tokens = afterLayout others :=
  scans.skips (skips_blank (by decide)) (List.cons_ne_nil ' ' []) some

theorem scan_eq (scans : Scans piece [] spelled) :
    ∃ tokens, spelled tokens ∧ scan piece = .ok tokens := by
  obtain ⟨tokens, isSpelled, scanned⟩ := scans 0
  refine ⟨tokens, isSpelled, ?_⟩
  rw [List.append_nil, scanFrom_nil] at scanned
  simpa [scan, Except.map] using scanned

end Scans

def IsToken (kind : TokenKind) (tokens : List Token) : Prop :=
  ∃ token : Token, token.kind = kind ∧ token.layoutBefore = false ∧ tokens = [token]

theorem Scans.one {c : Char} {word rest : List Char} {kind : TokenKind}
    (layout : ∀ position, layoutLength position (c :: (word ++ rest)) = .ok 0)
    (found : ∀ position, scanOne position c (word ++ rest) = .ok (kind, word.length)) :
    Scans (c :: word) rest (IsToken kind) := by
  intro position
  obtain ⟨token, isKind, noLayout, scanned⟩ := scanFrom_cons (layout position) (found position)
  exact ⟨[token], ⟨token, isKind, noLayout, rfl⟩, scanned⟩

theorem visible_of_mem_marks : ∀ c ∈ marks, isBlank c = false ∧ c ≠ '%' ∧ c ≠ '/' :=
  forall_mem_of_all (by decide)

theorem scanOne_mark {mark : Char} (member : mark ∈ marks) (place : Nat) (rest : List Char) :
    scanOne place mark rest = .ok (.punctuation mark, 0) := by
  have earlier : ∀ c ∈ marks, Number.isDigit c = false ∧ (c = '_' || isUppercase c) = false ∧
      isAlphabetic c = false ∧ c ≠ '\x27' ∧ (c = '\x22' || c = '\x60') = false :=
    forall_mem_of_all (by decide)
  obtain ⟨noDigit, noVariable, noLetter, noQuote, noString⟩ := earlier mark member
  simp [scanOne, noDigit, noVariable, noLetter, noQuote, noString, member]

theorem scans_mark {mark : Char} (member : mark ∈ marks) (rest : List Char) :
    Scans [mark] rest (IsToken (.punctuation mark)) := by
  obtain ⟨noBlank, noComment, noSlash⟩ := visible_of_mem_marks mark member
  apply Scans.one
  · intro position
    exact layoutLength_eq_zero position noBlank noComment (fun opening => noSlash opening.1)
  · intro position
    exact scanOne_mark member position rest

/-- Tokens with the stated property between a mark in front of them and whatever follows. -/
def AfterMark (mark : Char) (spelled : List Token → Prop) (tokens : List Token) : Prop :=
  ∃ (token : Token) (others : List Token), token.kind = .punctuation mark ∧
    token.layoutBefore = false ∧ spelled others ∧ tokens = token :: others

def BeforeMark (mark : Char) (spelled : List Token → Prop) (tokens : List Token) : Prop :=
  ∃ (others : List Token) (token : Token), spelled others ∧ token.kind = .punctuation mark ∧
    tokens = others ++ [token]

namespace Scans

variable {mark : Char} {piece rest : List Char} {spelled : List Token → Prop}

theorem afterMark (member : mark ∈ marks) (scans : Scans piece rest spelled) :
    Scans (mark :: piece) rest (AfterMark mark spelled) := by
  apply (scans_mark member (piece ++ rest)).append scans
  rintro former latter ⟨token, kind, touches, rfl⟩ isSpelled
  exact ⟨token, latter, kind, touches, isSpelled, rfl⟩

theorem beforeMark (member : mark ∈ marks) (scans : Scans piece (mark :: rest) spelled) :
    Scans (piece ++ [mark]) rest (BeforeMark mark spelled) := by
  apply Scans.append scans (scans_mark member rest)
  rintro former latter isSpelled ⟨token, kind, _, rfl⟩
  exact ⟨former, token, isSpelled, kind, rfl⟩

end Scans

end Token

end HornQuery
