import HornQuery.Proofs.Token.Sliced
import HornQuery.Proofs.Token.Endings

namespace HornQuery.Token.Sliced

open Text

/-- The outcome of scanning by characters, as one of scanning by byte positions. -/
def outcome {α β : Type} (found : α → β) : Except ReadError α → Scan β
  | .ok value => pure (found value)
  | .error cause => fail cause

/-- Something that takes a number of characters is found up to the position after these. -/
def settled {α : Type} (position : Nat) (rest : List Char) :
    Except ReadError (α × Nat) → Scan (α × Nat) :=
  outcome fun found => (found.1, position + byteLength (rest.take found.2))

section

variable {α β γ δ : Type} {result : Except ReadError α} {found : α → β} {given : γ → δ}

theorem outcome_bind {next : β → Scan δ} {step : α → Except ReadError γ}
    (same : ∀ value, result = .ok value → next (found value) = outcome given (step value)) :
    outcome found result >>= next = outcome given (result >>= step) := by
  cases result with
  | error cause => rfl
  | ok value => exact (pure_bind _ _).trans (same value rfl)

theorem outcome_map (step : α → γ) :
    outcome given (result >>= fun value => .ok (step value)) =
      outcome (fun value => given (step value)) result := by
  cases result <;> rfl

end

section

variable {text rest : List Char} {c : Char} {position width : Nat}

theorem add_byteLength_take_cons (position more : Nat) (c : Char) (rest : List Char) :
    position + c.utf8Size + byteLength (rest.take more) =
      position + byteLength ((c :: rest).take (1 + more)) :=
  add_byteLength_take position 1 more (c :: rest)

/-! Layout. -/

theorem isPrefixOf_blockEnd (noStart : ∀ after, c = '*' → rest = '/' :: after → False) :
    ['*', '/'].isPrefixOf (c :: rest) = false := by
  rw [← Bool.not_eq_true, List.isPrefixOf_iff_prefix]
  rintro ⟨after, same⟩
  cases same
  exact noStart after rfl rfl

theorem find?_eq_none (noEnd : blockLength? text = none) : find? ['*', '/'] text = none := by
  fun_induction blockLength? text with
  | case1 => rfl
  | case2 rest => cases noEnd
  | case3 c rest noStart induction =>
      rw [find?, isPrefixOf_blockEnd noStart, induction (Option.map_eq_none_iff.mp noEnd)]
      rfl

/-- A block comment goes on to the first place where its end stands. -/
theorem exists_find? (found : blockLength? text = some width) :
    ∃ inside after, text = inside ++ ('*' :: '/' :: after) ∧ width = inside.length + 2 ∧
      ¬['*', '/'] <:+: inside ++ ['*'] ∧ find? ['*', '/'] text = some (byteLength inside) := by
  fun_induction blockLength? text generalizing width with
  | case1 => cases found
  | case2 rest =>
      cases found
      exact ⟨[], rest, rfl, rfl, by decide, rfl⟩
  | case3 c rest noStart induction =>
      obtain ⟨count, inner, rfl⟩ := Option.map_eq_some_iff.mp found
      obtain ⟨inside, after, rfl, rfl, first, isFound⟩ := induction inner
      refine ⟨c :: inside, after, rfl, rfl, ?_, ?_⟩
      · rw [List.cons_append, List.infix_cons_iff]
        rintro (⟨more, same⟩ | later)
        · cases inside with
          | nil => cases same
          | cons d inside =>
              cases same
              exact noStart _ rfl rfl
        · exact first later
      · rw [find?, isPrefixOf_blockEnd noStart, isFound]
        rfl

theorem skipLayout_eq (goesOn : GoesOn text position rest) :
    skipLayout text position =
      outcome (fun width => position + byteLength (rest.take width)) (layoutLength position rest) := by
  fun_induction layoutLength position rest with
  | case1 position =>
      rw [skipLayout, peek_eq goesOn, pure_bind]
      rfl
  | case2 position c rest blank induction =>
      rw [skipLayout, peek_eq goesOn, pure_bind]
      simp only [List.head?_cons, if_pos blank, bump_cons goesOn, pure_bind,
        induction goesOn.next, outcome_map, ← add_byteLength_take_cons]
  | case3 position rest comment visible =>
      rename_i induction
      have after := goesOn.next.drop comment.length
      have line : ('%' :: rest).takeWhile (· ≠ '\n') = '%' :: comment := rfl
      have taken : rest.take comment.length = comment := take_length_takeWhile _ rest
      rw [taken] at after
      rw [skipLayout, peek_eq goesOn, pure_bind]
      simp only [List.head?_cons, if_neg visible, takeWhile_eq goesOn, pure_bind, if_true, line,
        byteLength_cons, ← Nat.add_assoc, induction after, outcome_map]
      congr 1
      funext more
      rw [Nat.add_assoc 1, ← add_byteLength_take_cons, ← add_byteLength_take, taken]
  | case4 position c rest visible noLine opens noBlock =>
      simp only [Bool.and_eq_true, decide_eq_true_eq] at opens
      obtain ⟨rfl, star⟩ := opens
      obtain ⟨rest, rfl⟩ := List.head?_eq_some_iff.mp star
      have inside : GoesOn text (position + 2) rest := goesOn.next.next
      have noEnd : find? ['*', '/'] rest = none := find?_eq_none noBlock
      rw [skipLayout, peek_eq goesOn, pure_bind]
      simp only [List.head?_cons, if_neg visible, if_neg noLine, if_true, peekAt_eq goesOn,
        pure_bind, List.getElem?_cons_succ, List.getElem?_cons_zero, slice_rest inside,
        noEnd, goesOn.add_byteLength]
      rfl
  | case5 position c rest visible noLine opens width isBlock comment =>
      rename_i induction
      simp only [Bool.and_eq_true, decide_eq_true_eq] at opens
      obtain ⟨rfl, star⟩ := opens
      obtain ⟨rest, rfl⟩ := List.head?_eq_some_iff.mp star
      obtain ⟨inside, after, same, rfl, _, isFound⟩ := exists_find? isBlock
      rw [List.drop_succ_cons, List.drop_zero] at same isFound
      subst same
      have block : GoesOn text (position + 2) (inside ++ '*' :: '/' :: after) := goesOn.next.next
      have stop : position + (2 + byteLength inside + 2) =
          position + '/'.utf8Size + byteLength comment := by
        have taken : comment = '*' :: (inside ++ ['*', '/']) := by
          simp [comment, Nat.add_comm 1, List.take_append]
        have sizes : '/'.utf8Size = 1 ∧ '*'.utf8Size = 1 := ⟨rfl, rfl⟩
        simp only [taken, byteLength_cons, byteLength_append, byteLength_nil, sizes]
        omega
      rw [skipLayout, peek_eq goesOn, pure_bind]
      simp only [List.head?_cons, if_neg visible, if_neg noLine, if_true, peekAt_eq goesOn,
        pure_bind, List.getElem?_cons_succ, List.getElem?_cons_zero, slice_rest block,
        isFound, stop, induction (goesOn.next.drop _), outcome_map]
      congr 1
      funext more
      have shift : 2 + (inside.length + 2) + more = 1 + (1 + (inside.length + 2) + more) := by omega
      rw [shift]
      exact (add_byteLength_take _ _ more _).trans (add_byteLength_take_cons _ _ _ _)
  | case6 position c rest visible noLine noBlock =>
      simp only [Bool.and_eq_true, decide_eq_true_eq, not_and] at noBlock
      rw [skipLayout, peek_eq goesOn, pure_bind]
      simp only [List.head?_cons, if_neg visible, if_neg noLine]
      split
      case isTrue slash =>
        rw [peekAt_eq goesOn, pure_bind, List.getElem?_cons_succ, ← List.head?_eq_getElem?,
          if_neg (noBlock slash)]
        rfl
      case isFalse => rfl

/-! Escapes and quoted text. -/

theorem byteLength_closing (text : List Char) :
    byteLength (text.take (closing text)) = closing text := by
  unfold closing
  split
  case isTrue closed =>
    obtain ⟨rest, rfl⟩ := List.head?_eq_some_iff.mp closed
    rfl
  case isFalse => rfl

theorem skipClosing_eq (goesOn : GoesOn text position rest) :
    skipClosing text position = pure (position + closing rest) := by
  rw [skipClosing, peek_eq goesOn, pure_bind, closing]
  split
  case isTrue closed =>
    obtain ⟨after, rfl⟩ := List.head?_eq_some_iff.mp closed
    rw [bump_cons goesOn, pure_bind]
    rfl
  case isFalse => rfl

theorem octalNumber_eq (goesOn : GoesOn text position rest) (code : UInt32) :
    octalNumber text code position =
      pure ((rest.takeWhile isOctalDigit).foldl (fun n d => n * 8 + UInt32.ofNat (hexValue d)) code,
        position + byteLength (rest.takeWhile isOctalDigit)) := by
  induction rest generalizing position code with
  | nil =>
      rw [octalNumber, peek_eq goesOn, pure_bind]
      rfl
  | cons c rest induction =>
      rw [octalNumber, peek_eq goesOn, pure_bind]
      simp only [List.head?_cons]
      by_cases digit : isOctalDigit c = true
      · rw [if_pos digit, bump_cons goesOn, pure_bind, induction goesOn.next,
          List.takeWhile_cons_of_pos digit, List.foldl_cons, byteLength_cons, Nat.add_assoc]
      · rw [if_neg digit, List.takeWhile_cons_of_neg digit]
        rfl

theorem character_eq (code position : Nat) :
    character code position = outcome id (Token.character code position) := by
  unfold character Token.character
  split <;> rfl

theorem settled_character {code stop width : Nat}
    (stops : stop = position + byteLength (rest.take width)) :
    (do return (some (← character code stop), stop)) =
      settled position rest (do
        let decoded ← Token.character code stop
        .ok (some decoded, width)) := by
  rw [character_eq]
  apply outcome_bind
  intro decoded _
  rw [stops]
  rfl

theorem byteLength_takeWhile {p : Char → Bool} (digits : ∀ c, p c = true → isHexDigit c = true)
    (rest : List Char) : byteLength (rest.takeWhile p) = (rest.takeWhile p).length :=
  byteLength_eq_length fun c member =>
    utf8Size_of_isHexDigit (digits c (List.mem_takeWhile_imp member))

theorem goesOn_digits {p : Char → Bool} (digits : ∀ d, p d = true → isHexDigit d = true)
    (goesOn : GoesOn text position rest) :
    GoesOn text (position + (rest.takeWhile p).length) (rest.drop (rest.takeWhile p).length) := by
  have after := goesOn.drop (rest.takeWhile p).length
  rwa [take_length_takeWhile, byteLength_takeWhile digits] at after

theorem goesOn_closing (goesOn : GoesOn text position rest) :
    GoesOn text (position + closing rest) (rest.drop (closing rest)) := by
  have after := goesOn.drop (closing rest)
  rwa [byteLength_closing] at after

theorem settled_closed {p : Char → Bool} (digits : ∀ d, p d = true → isHexDigit d = true)
    (goesOn : GoesOn text position (c :: rest)) (code : Nat) :
    (do
      let next ← skipClosing text (position + c.utf8Size + (rest.takeWhile p).length)
      return (some (← character code next), next)) =
      settled position (c :: rest) (do
        let close := closing (rest.drop (rest.takeWhile p).length)
        let decoded ← Token.character code
          (position + c.utf8Size + (rest.takeWhile p).length + close)
        .ok (some decoded, 1 + (rest.takeWhile p).length + close)) := by
  rw [skipClosing_eq (goesOn_digits digits goesOn.next), pure_bind]
  apply settled_character
  rw [Nat.add_assoc 1, ← add_byteLength_take_cons, ← add_byteLength_take, byteLength_closing,
    take_length_takeWhile, byteLength_takeWhile digits]

theorem slice?_eq_window? (goesOn : GoesOn text position rest) (bytes : Nat) :
    slice? text position (min (position + bytes) (byteLength text)) = window? bytes rest := by
  obtain ⟨before, rfl, rfl⟩ := goesOn
  ext part
  rw [slice?_eq_some_iff, window?_eq_some_iff, byteLength_append]
  constructor
  · rintro ⟨other, after, same, sized, stops⟩
    obtain ⟨rfl, rfl⟩ := append_inj_of_byteLength same sized
    rw [byteLength_append, byteLength_append] at stops
    refine ⟨after, rfl, ?_⟩
    by_cases none : after = []
    · rw [none, byteLength_nil] at stops
      rcases Nat.lt_or_ge (byteLength part) bytes with short | full
      · exact .inr ⟨short, none⟩
      · exact .inl (by omega)
    · have positive := byteLength_pos none
      exact .inl (by omega)
  · rintro ⟨after, rfl, full⟩
    refine ⟨before, after, rfl, rfl, ?_⟩
    rw [byteLength_append, byteLength_append]
    rcases full with full | ⟨short, rfl⟩
    · omega
    · rw [byteLength_nil]
      omega

theorem stop_of_window? {bytes : Nat} {digits : List Char} (goesOn : GoesOn text position rest)
    (window : window? bytes rest = some digits) :
    min (position + bytes) (byteLength text) = position + byteLength digits := by
  rw [← slice?_eq_window? goesOn] at window
  obtain ⟨before, after, _, starts, stops⟩ := slice?_eq_some_iff.mp window
  rw [stops, starts, byteLength_append]

theorem escape_eq (goesOn : GoesOn text position rest) :
    escape text position = settled position rest (Token.escape position rest) := by
  have octal : ∀ d, isOctalDigit d = true → isHexDigit d = true :=
    fun _ => isHexDigit_of_isOctalDigit
  cases rest with
  | nil =>
      rw [escape, bump_nil goesOn, pure_bind]
      rfl
  | cons c rest =>
      rw [escape, bump_cons goesOn, pure_bind]
      simp only [Token.escape]
      cases letterEscape? c with
      | some decoded => rfl
      | none =>
          simp only
          by_cases lineEnd : c = '\n'
          · rw [if_pos lineEnd, if_pos lineEnd]
            rfl
          rw [if_neg lineEnd, if_neg lineEnd]
          by_cases isHex : c = 'x'
          · rw [if_pos isHex, if_pos isHex, takeWhile_eq goesOn.next, pure_bind,
              byteLength_takeWhile fun _ => id]
            simp only
            split
            case isTrue => rfl
            case isFalse =>
              exact settled_closed (fun _ => id) goesOn _
          rw [if_neg isHex, if_neg isHex]
          by_cases isUnicode : (decide (c = 'u') || decide (c = 'U')) = true
          · rw [if_pos isUnicode, if_pos isUnicode, slice?_eq_window? goesOn.next]
            cases window : window? (if c = 'u' then 4 else 8) rest with
            | none => rfl
            | some digits =>
                simp only [Option.getD_some, stop_of_window? goesOn.next window]
                cases hexNumber? digits with
                | none => rfl
                | some code =>
                    obtain ⟨after, rfl, _⟩ := window?_eq_some_iff.mp window
                    apply settled_character
                    rw [← add_byteLength_take_cons, List.take_left]
          rw [if_neg isUnicode, if_neg isUnicode]
          split
          case isTrue digit =>
            have number : Token.octalNumber (c :: rest.takeWhile isOctalDigit) =
                (rest.takeWhile isOctalDigit).foldl (fun n d => n * 8 + UInt32.ofNat (hexValue d))
                  (UInt32.ofNat (hexValue c)) := by
              rw [Token.octalNumber, List.foldl_cons, UInt32.zero_mul, UInt32.zero_add]
            rw [octalNumber_eq goesOn.next, pure_bind, ← number, byteLength_takeWhile octal]
            exact settled_closed octal goesOn _
          case isFalse => rfl

theorem settled_bind {α β : Type} {read : Except ReadError (α × Nat)} {place : Nat}
    {after : List Char} (put : α → β) (shift : Nat → Nat)
    (ends : ∀ taken, place + byteLength (after.take taken) =
      position + byteLength (rest.take (shift taken))) :
    (do
      let later ← settled place after read
      return (put later.1, later.2)) =
      settled position rest (do
        let later ← read
        .ok (put later.1, shift later.2)) := by
  apply outcome_bind
  intro later _
  simp only [outcome, ends]

theorem quotedFrom_eq (goesOn : GoesOn text position rest) (opening : Nat) (quote : Char) :
    quotedFrom text opening quote position =
      settled position rest (Token.quotedText opening quote position rest) := by
  fun_induction Token.quotedText opening quote position rest with
  | case1 position =>
      rw [quotedFrom, bump_nil goesOn, pure_bind]
      rfl
  | case2 position =>
      rw [quotedFrom, bump_cons goesOn, pure_bind]
      simp only [if_true, peek_eq goesOn.next, pure_bind]
      rfl
  | case3 position more induction =>
      rw [quotedFrom, bump_cons goesOn, pure_bind]
      simp only [if_true, peek_eq goesOn.next, pure_bind, List.head?_cons,
        bump_cons goesOn.next, induction goesOn.next.next]
      refine settled_bind (quote :: ·) (· + 2) fun taken => ?_
      rw [List.take_succ_cons, List.take_succ_cons, byteLength_cons, byteLength_cons,
        Nat.add_assoc, Nat.add_assoc]
  | case4 position next more apart =>
      rw [quotedFrom, bump_cons goesOn, pure_bind]
      simp only [if_true, peek_eq goesOn.next, pure_bind, List.head?_cons, Option.some.injEq,
        if_neg apart]
      rfl
  | case5 position rest apart induction =>
      rw [quotedFrom, bump_cons goesOn, pure_bind]
      simp only [if_neg apart, if_true, escape_eq goesOn.next]
      apply outcome_bind
      rintro ⟨decoded?, width⟩ _
      simp only [induction width (goesOn.next.drop width)]
      refine settled_bind (decoded?.toList ++ ·) (1 + width + ·) fun taken => ?_
      rw [Nat.add_assoc 1, ← add_byteLength_take_cons, add_byteLength_take]
  | case6 position c rest noQuote noEscape induction =>
      rw [quotedFrom, bump_cons goesOn, pure_bind]
      simp only [if_neg noQuote, if_neg noEscape, induction goesOn.next]
      refine settled_bind (c :: ·) (· + 1) fun taken => ?_
      rw [List.take_succ_cons, byteLength_cons, Nat.add_assoc]

theorem quotedText_eq {quote : Char} (goesOn : GoesOn text position (c :: rest)) :
    quotedText text quote position =
      settled (position + c.utf8Size) rest
        (Token.quotedText position quote (position + c.utf8Size) rest) := by
  rw [quotedText, bump_cons goesOn, pure_bind]
  exact quotedFrom_eq goesOn.next position quote

end

end HornQuery.Token.Sliced
