import HornQuery.Proofs.Token.NumberPositions

namespace HornQuery.Token.Sliced

open Text

variable {text rest after : List Char} {c : Char} {position : Nat}

theorem isNameCharacter_of_isAlphabetic (letter : isAlphabetic c = true) :
    isNameCharacter c = true := by
  simp [isNameCharacter, isAlphanumeric, letter]

theorem endsClause_eq (goesOn : GoesOn text position (c :: rest)) :
    endsClause text position c = pure (c = '.' && Token.endsClause rest) := by
  unfold endsClause
  split
  case isTrue point =>
    rw [peekAt_eq goesOn, pure_bind, List.getElem?_cons_succ, ← List.head?_eq_getElem?]
    cases rest <;> simp [point, Token.endsClause]
  case isFalse noPoint => simp [noPoint]

theorem settled_word {p : Char → Bool} (first : p c = true)
    (goesOn : GoesOn text position (c :: rest)) (put : List Char → TokenKind) :
    (do
      let (name, stop) ← takeWhile text p position
      return (put name, stop)) =
      settled (position + c.utf8Size) rest
        (.ok (put (c :: rest.takeWhile p), (rest.takeWhile p).length)) := by
  rw [takeWhile_eq goesOn, pure_bind, List.takeWhile_cons_of_pos first]
  simp only [settled, outcome, take_length_takeWhile, byteLength_cons, Nat.add_assoc]

theorem settled_quoted {quote : Char} (goesOn : GoesOn text position (quote :: rest))
    (narrow : quote.utf8Size = 1) (put : List Char → TokenKind) :
    (do
      let (content, stop) ← quotedText text quote position
      return (put content, stop)) =
      settled (position + quote.utf8Size) rest (do
        let (content, width) ← Token.quotedText position quote (position + 1) rest
        .ok (put content, width)) := by
  rw [quotedText_eq goesOn, narrow]
  exact settled_bind put id fun _ => rfl

theorem settled_number (goesOn : GoesOn text position (c :: rest)) (digit : Number.isDigit c = true) :
    number text position =
      settled (position + c.utf8Size) rest (do
        let (kind, width) ← Token.number position (c :: rest)
        .ok (kind, width - 1)) := by
  rw [number_eq goesOn digit]
  cases found : Token.number position (c :: rest) with
  | error cause => rfl
  | ok result =>
      obtain ⟨word, after, rfl, width, _⟩ := number_exchanged digit found
      simp only [settled, outcome, bind, Except.bind, width, ← add_byteLength_take_cons,
        Nat.add_sub_cancel_left]

theorem token_eq (goesOn : GoesOn text position (c :: rest)) :
    token text position c = settled (position + c.utf8Size) rest (scanOne position c rest) := by
  unfold token scanOne
  split
  case isTrue digit => exact settled_number goesOn digit
  split
  case isTrue capital =>
    refine settled_word ?_ goesOn fun name => .var (String.ofList name)
    rw [Bool.or_eq_true, decide_eq_true_eq] at capital
    rcases capital with rfl | capital
    · decide +kernel
    · exact isNameCharacter_of_isAlphabetic (isAlphabetic_of_isUppercase capital)
  split
  case isTrue letter =>
    exact settled_word (isNameCharacter_of_isAlphabetic letter) goesOn
      fun name => .name (String.ofList name)
  split
  case isTrue quote =>
    subst quote
    exact settled_quoted goesOn rfl fun content => .quoted (String.ofList content)
  split
  case isTrue quote =>
    rw [Bool.or_eq_true, decide_eq_true_eq, decide_eq_true_eq] at quote
    have narrow : c.utf8Size = 1 := by rcases quote with rfl | rfl <;> rfl
    exact settled_quoted goesOn narrow fun content => .string (String.ofList content)
  split
  case isTrue => rw [bump_cons goesOn]; rfl
  split
  case isTrue => rw [bump_cons goesOn]; rfl
  rw [endsClause_eq goesOn, pure_bind]
  split
  case isTrue => rw [bump_cons goesOn]; rfl
  split
  case isTrue symbol => exact settled_word symbol goesOn fun name => .name (String.ofList name)
  case isFalse => rfl

theorem lt_skipped_iff {skipped : Nat} (some : rest.drop skipped = c :: after) :
    position < position + byteLength (rest.take skipped) ↔ 0 < skipped := by
  cases skipped with
  | zero => simp
  | succ skipped =>
      cases rest with
      | nil => cases some
      | cons d rest => simp [d.utf8Size_pos]

theorem scanFrom_eq (goesOn : GoesOn text position rest) :
    scanFrom text position = outcome id (Token.scanFrom position rest) := by
  induction position, rest using Token.scanFrom.induct with
  | case1 position rest induction =>
      rw [scanFrom, skipLayout_eq goesOn]
      cases layout : layoutLength position rest with
      | error cause =>
          rw [Token.scanFrom, layout]
          rfl
      | ok skipped =>
          have found := goesOn.drop skipped
          simp only [outcome, pure_bind, peek_eq found]
          cases remains : rest.drop skipped with
          | nil =>
              rw [scanFrom_of_layout layout remains]
              rfl
          | cons c after =>
              rw [remains] at found
              rw [scanFrom_of_token layout remains rfl]
              simp only [List.head?_cons, token_eq found, lt_skipped_iff remains]
              apply outcome_bind
              rintro ⟨kind, more⟩ _
              simp only [induction skipped c after remains more (found.next.drop more)]
              apply outcome_bind
              intro others _
              rfl

/-- Scanning by byte positions is scanning by characters. -/
theorem scan_eq (text : List Char) : scan text = outcome id (Token.scan text) :=
  scanFrom_eq (goesOn_zero text)

end HornQuery.Token.Sliced
