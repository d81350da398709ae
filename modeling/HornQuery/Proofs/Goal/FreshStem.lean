import HornQuery.Proofs.Goal.Written
import HornQuery.Proofs.Text.Lines
import HornQuery.Proofs.Token.Spelled

namespace HornQuery.GoalPattern

open Fragment

/-- The stem to use: the plain one, else the first free one of the numbered stems. -/
inductive FirstFree (text : List Char) : List Char → Prop
  | plain (free : ¬ ['P', '_'] <:+: text) : FirstFree text ['P', '_']
  | numbered {n : Nat} (early : n ≤ Text.byteLength text) (taken : ['P', '_'] <:+: text)
      (earlier : ∀ m < n, numberedStem m <:+: text) (free : ¬ numberedStem n <:+: text) :
      FirstFree text (numberedStem n)

def slots (fragments : List Fragment) : List (Option (List Char)) :=
  fragments.filterMap fun fragment =>
    match fragment with
    | .literal _ => none
    | .named name => some (some name)
    | .unnamed => some none

def slotNameOf (stem : List Char) (slot : Option (List Char) × Nat) : String :=
  match slot with
  | (some name, _) => String.ofList name
  | (none, index) => slotName stem index

/-! The search for a stem. -/

section

variable {text needle : List Char} {n m : Nat}

theorem occursIn_iff : Text.occursIn needle text = true ↔ needle <:+: text := by
  induction text with
  | nil => rw [Text.occursIn, List.isEmpty_iff, List.infix_nil]
  | cons c text induction =>
      rw [Text.occursIn, Bool.or_eq_true, induction, List.isPrefixOf_iff_prefix,
        List.infix_cons_iff]

theorem takeWhile_numberedStem (starts : numberedStem n <+: text) :
    text.tail.takeWhile Number.isDigit = Nat.toDigits 10 n := by
  obtain ⟨rest, rfl⟩ := starts
  have digits : ∀ c ∈ Nat.toDigits 10 n, Number.isDigit c = true :=
    fun c member => Number.isDigit_of_mem_toDigits member
  have stops : ∀ c ∈ (['_'] ++ rest).head?, Number.isDigit c = false := by
    rintro c ⟨⟩
    rfl
  rw [numberedStem, List.cons_append, List.tail_cons, List.append_assoc,
    Token.takeWhile_append_of_stops digits stops]

theorem eq_of_numberedStem (first : numberedStem n <+: text) (second : numberedStem m <+: text) :
    n = m := by
  rw [← Number.ofDigits_toDigits n, ← takeWhile_numberedStem first, takeWhile_numberedStem second,
    Number.ofDigits_toDigits]

/-- There is room for one numbered stem at each character. -/
theorem length_le_of_numberedStem {numbers : List Nat} (distinct : numbers.Nodup)
    (inside : ∀ n ∈ numbers, numberedStem n <:+: text) : numbers.length ≤ text.length := by
  induction text generalizing numbers with
  | nil =>
      cases numbers with
      | nil => exact Nat.le_refl 0
      | cons n numbers => cases List.infix_nil.mp (inside n List.mem_cons_self)
  | cons c text induction =>
      -- At most one of the stems starts here, and the others are found behind.
      rw [List.length_cons]
      by_cases starts : ∃ n ∈ numbers, numberedStem n <+: c :: text
      · obtain ⟨n, member, first⟩ := starts
        have others : (numbers.erase n).length ≤ text.length := by
          refine induction (distinct.erase n) fun other kept => ?_
          obtain ⟨different, kept⟩ := distinct.mem_erase_iff.mp kept
          have deeper := List.infix_cons_iff.mp (inside other kept)
          exact deeper.resolve_left fun second => different (eq_of_numberedStem second first)
        rw [List.length_erase_of_mem member] at others
        omega
      · have deeper : ∀ n ∈ numbers, numberedStem n <:+: text := fun n member =>
          (List.infix_cons_iff.mp (inside n member)).resolve_left fun first =>
            starts ⟨n, member, first⟩
        exact (induction distinct deeper).trans (Nat.le_succ _)

theorem exists_free (text : List Char) : ∃ n ≤ text.length, ¬ numberedStem n <:+: text := by
  by_contra none
  push Not at none
  have inside : ∀ n ∈ List.range (text.length + 1), numberedStem n <:+: text :=
    fun n member => none n (Nat.le_of_lt_succ (List.mem_range.mp member))
  have many := length_le_of_numberedStem List.nodup_range inside
  rw [List.length_range] at many
  omega

theorem firstFree_freshStem (text : List Char) : FirstFree text (freshStem text) := by
  have isFree : ∀ stem, (!Text.occursIn stem text) = true ↔ ¬ stem <:+: text := by
    intro stem
    rw [Bool.not_eq_true', ← Bool.not_eq_true, occursIn_iff]
  simp only [freshStem]
  by_cases taken : ['P', '_'] <:+: text
  case neg =>
    rw [if_pos ((isFree _).mpr taken)]
    exact .plain taken
  case pos =>
    have some := exists_free text
    obtain ⟨early, free⟩ := Nat.find_spec some
    have earlier : ∀ m < Nat.find some, numberedStem m <:+: text := by
      intro m before
      by_contra free
      exact Nat.find_min some before ⟨before.le.trans early, free⟩
    have found : (List.range (text.length + 1)).find?
        ((fun stem => !Text.occursIn stem text) ∘ numberedStem) = Option.some (Nat.find some) := by
      rw [List.find?_range_eq_some]
      refine ⟨(isFree _).mpr free, List.mem_range.mpr (Nat.lt_succ_of_le early), ?_⟩
      intro m before
      simpa [occursIn_iff] using earlier m before
    rw [if_neg (fun free => (isFree _).mp free taken), List.find?_map, found]
    exact .numbered (early.trans (Text.length_le_byteLength text)) taken earlier free

theorem FirstFree.free {stem : List Char} (first : FirstFree text stem) : ¬ stem <:+: text := by
  cases first with
  | plain free => exact free
  | numbered _ _ _ free => exact free

theorem FirstFree.noQuote {stem : List Char} (first : FirstFree text stem) (quote : Char)
    (isQuote : quote = '\x27' ∨ quote = '\x22' ∨ quote = '\x60') : quote ∉ stem := by
  have apart : Number.isDigit quote = false ∧ quote ∉ ['P', '_'] := by
    rcases isQuote with rfl | rfl | rfl <;> decide
  cases first with
  | plain => exact apart.2
  | numbered =>
      intro member
      rw [numberedStem, List.mem_cons, List.mem_append] at member
      rcases member with same | digit | same
      · exact apart.2 (same ▸ List.mem_cons_self)
      · exact absurd (Number.isDigit_of_mem_toDigits digit) (Bool.eq_false_iff.mp apart.1)
      · exact apart.2 (List.mem_cons_of_mem 'P' same)

theorem isInfix_slotName (stem : List Char) (index : Nat) :
    stem <:+: (slotName stem index).toList := by
  rw [slotName, String.toList_ofList]
  exact (List.prefix_append stem _).isInfix

theorem FirstFree.not_slotName_isInfix {stem name : List Char} (first : FirstFree text stem)
    (inside : name <:+: text) (index : Nat) : ¬ (slotName stem index).toList <:+: name :=
  fun within => first.free (((isInfix_slotName stem index).trans within).trans inside)

end

/-! Every text is written by fragments. -/

section

variable {fragments : List Fragment} {name : List Char}

theorem mem_head?_writtenAll (c : Char) (text : List Char) (fragments : List Fragment) :
    c ∈ (writtenAll (.literal (c :: text) :: fragments)).head? := by
  rw [writtenAll, List.flatMap_cons, written, List.flatMap_cons]
  split
  case isTrue mark => exact congrArg some mark.symm
  case isFalse => rfl

theorem precedes_named
    (stops : ∀ c ∈ (writtenAll fragments).head?, Text.isNameCharacter c = false) :
    ∀ next ∈ fragments.head?, (Fragment.named name).Precedes next := by
  cases fragments with
  | nil => exact nofun
  | cons first fragments =>
      rintro _ ⟨⟩
      cases first with
      | named | unnamed => trivial
      | literal text =>
          cases text with
          | nil => exact nofun
          | cons c text =>
              rintro _ ⟨⟩
              exact stops c (mem_head?_writtenAll c text fragments)

theorem precedes_unnamed
    (stops : ∀ c ∈ (writtenAll fragments).head?, Text.isNameCharacter c = false ∧ c ≠ '?') :
    ∀ next ∈ fragments.head?, Fragment.unnamed.Precedes next := by
  cases fragments with
  | nil => exact nofun
  | cons first fragments =>
      rintro _ ⟨⟩
      cases first with
      | named | unnamed => exact absurd rfl (stops '?' rfl).2
      | literal text =>
          cases text with
          | nil => exact nofun
          | cons c text =>
              rintro _ ⟨⟩
              exact stops c (mem_head?_writtenAll c text fragments)

theorem Proper.cons {fragment : Fragment} (proper : Proper fragments)
    (isProper : fragment.IsProper) (precedes : ∀ next ∈ fragments.head?, fragment.Precedes next) :
    Proper (fragment :: fragments) :=
  ⟨List.forall_mem_cons.mpr ⟨isProper, proper.each⟩,
    List.isChain_cons.mpr ⟨precedes, proper.apart⟩⟩

theorem Proper.cons_literal (proper : Proper fragments) (c : Char) :
    Proper (.literal [c] :: fragments) :=
  proper.cons (List.cons_ne_nil c []) fun _ _ => trivial

theorem exists_proper (text : List Char) :
    ∃ fragments, Proper fragments ∧ writtenAll fragments = text := by
  suffices every : ∀ count : Nat, ∃ fragments, Proper fragments ∧ writtenAll fragments = text from
    every 0
  intro count
  fun_induction segmentsFrom [] count text with
  | case1 => exact ⟨[], ⟨nofun, List.isChain_nil⟩, rfl⟩
  | case2 count rest induction =>
      obtain ⟨fragments, proper, rfl⟩ := induction
      exact ⟨.literal ['?'] :: fragments, proper.cons_literal '?', rfl⟩
  | case3 count rest single name _ induction =>
      obtain ⟨fragments, proper, others⟩ := induction
      obtain ⟨run, after, rfl, all, stops⟩ := Token.exists_run Text.isNameCharacter rest
      have isRun : name = run := Token.takeWhile_append_of_stops all stops
      rw [isRun, List.drop_left] at others
      subst others
      cases run with
      | nil =>
          refine ⟨.unnamed :: fragments, proper.cons trivial (precedes_unnamed ?_), rfl⟩
          intro c first
          refine ⟨stops c first, ?_⟩
          rintro rfl
          obtain ⟨later, same⟩ := List.head?_eq_some_iff.mp first
          exact single later same
      | cons c run =>
          exact ⟨.named (c :: run) :: fragments,
            proper.cons ⟨List.cons_ne_nil c run, all⟩ (precedes_named stops), rfl⟩
  | case4 count c rest _ plain induction =>
      obtain ⟨fragments, proper, rfl⟩ := induction
      have noMark : c ≠ '?' := plain
      refine ⟨.literal [c] :: fragments, proper.cons_literal c, ?_⟩
      simp [writtenAll, written, noMark]

theorem isInfix_named (member : .named name ∈ fragments) : name <:+: writtenAll fragments := by
  obtain ⟨before, after, rfl⟩ := List.append_of_mem member
  exact ⟨writtenAll before ++ ['?'], writtenAll after, by simp [writtenAll, written]⟩

theorem segmentNames_resolved (stem : List Char) (count : Nat) (fragments : List Fragment) :
    segmentNames (resolved stem count fragments) =
      ((slots fragments).zipIdx count).map (slotNameOf stem) := by
  induction fragments generalizing count with
  | nil => rfl
  | cons fragment fragments induction =>
      cases fragment with
      | literal text => exact induction count
      | named name => exact congrArg (String.ofList name :: ·) (induction (count + 1))
      | unnamed => exact congrArg (slotName stem count :: ·) (induction (count + 1))

theorem segmentNames_compile {source : String} (proper : Proper fragments)
    (isText : writtenAll fragments = source.toList) :
    segmentNames (compile source).segments =
      (slots fragments).zipIdx.map (slotNameOf (freshStem source.toList)) := by
  have compiled : (compile source).segments =
      merged (resolved (freshStem source.toList) 0 fragments) := by
    rw [← segmentsFrom_writtenAll proper, isText]
    rfl
  rw [compiled, segmentNames_merged, segmentNames_resolved]

theorem eq_of_unnamed {stem : List Char} {places : List (Option (List Char))} {index other : Nat}
    (isUnnamed : places[index]? = some none) (isOther : places[other]? = some none)
    (same : (places.zipIdx.map (slotNameOf stem))[index]? =
      (places.zipIdx.map (slotNameOf stem))[other]?) : index = other := by
  rw [List.getElem?_map, List.getElem?_map, List.getElem?_zipIdx, List.getElem?_zipIdx, isUnnamed,
    isOther] at same
  simpa [slotNameOf, slotName_inj] using same

end

theorem exists_named {source name : String}
    (found : (Token.scan source.toList).toOption.any
      (fun tokens => tokens.any fun token => token.name? = some name) = true) :
    ∃ tokens token, Token.scan source.toList = .ok tokens ∧ token ∈ tokens ∧
      token.name? = some name := by
  cases scanned : Token.scan source.toList with
  | error cause =>
      rw [scanned] at found
      cases found
  | ok tokens =>
      rw [scanned] at found
      obtain ⟨token, member, named⟩ := List.any_eq_true.mp found
      exact ⟨tokens, token, rfl, member, of_decide_eq_true named⟩

/-- The names that placeholders get by themselves are different from each other, and nothing in the
pattern has one of them in it: no part of the text, no name of a placeholder, and no name of a
variable or of an atom but those that are spelled with an escape. -/
theorem freshStem_apart (source : String) :
    let text := source.toList
    let stem := freshStem text
    let names := segmentNames (compile source).segments
    FirstFree text stem ∧ ¬ stem <:+: text ∧
      (∃ fragments, Proper fragments ∧ writtenAll fragments = text) ∧
      (∀ fragments, Proper fragments → writtenAll fragments = text →
        names = (slots fragments).zipIdx.map (slotNameOf stem) ∧
          (∀ name, .named name ∈ fragments → ∀ index, String.ofList name ≠ slotName stem index) ∧
          ∀ index other : Nat, (slots fragments)[index]? = some none →
            (slots fragments)[other]? = some none → names[index]? = names[other]? →
            index = other) ∧
      (∀ name, name <:+: text → ∀ index, ¬ (slotName stem index).toList <:+: name) ∧
      ∀ tokens token, Token.scan text = .ok tokens → token ∈ tokens →
        ∃ spelled, token.Covers text spelled ∧
          ∀ name index, token.name? = some name →
            (slotName stem index).toList <:+: name.toList → token.HasEscape spelled := by
  intro text stem names
  have first : FirstFree text stem := firstFree_freshStem text
  refine ⟨first, first.free, exists_proper text, ?_, fun name => first.not_slotName_isInfix, ?_⟩
  · intro fragments proper isText
    have named : names = (slots fragments).zipIdx.map (slotNameOf stem) :=
      segmentNames_compile proper isText
    refine ⟨named, ?_, ?_⟩
    · intro name member index same
      refine first.not_slotName_isInfix (isText ▸ isInfix_named member) index ?_
      rw [← same, String.toList_ofList]
    · intro index other isUnnamed isOther same
      rw [named] at same
      exact eq_of_unnamed isUnnamed isOther same
  · intro tokens token scanned member
    obtain ⟨spelled, covers, spells⟩ := Token.exists_spelled scanned member
    refine ⟨spelled, covers, ?_⟩
    intro name index named within
    have inside := spells name stem named first.noQuote
      ((isInfix_slotName stem index).trans within)
    exact inside.resolve_left fun spelledOut => first.free (spelledOut.trans covers.isInfix)

/-- Stems of both kinds in the pattern, one of them in a name between apostrophes and one in a
string. -/
theorem freshStem_apart_names :
    let source := "f(P_0, 'P0_', \"P1_\", ?, ?X, ?)"
    let fragments : List Fragment :=
      [.literal "f(P_0, 'P0_', \"P1_\", ".toList, .unnamed, .literal [',', ' '], .named ['X'],
        .literal [',', ' '], .unnamed, .literal [')']]
    Proper fragments ∧ writtenAll fragments = source.toList ∧
      freshStem source.toList = "P2_".toList ∧
      segmentNames (compile source).segments = ["P2_0", "X", "P2_2"] ∧
      ∃ tokens token, Token.scan source.toList = .ok tokens ∧ token ∈ tokens ∧
        token.name? = some "P1_" ∧ ¬ (slotName "P2_".toList 0).toList <:+: "P1_".toList := by
  intro source fragments
  have letter : Text.isNameCharacter 'X' = true := by decide
  have comma : Text.isNameCharacter ',' = false := by decide
  have closing : Text.isNameCharacter ')' = false := by decide
  have proper : Proper fragments := by
    constructor
    · simp [fragments, IsProper, letter]
    · simp [fragments, Precedes, comma, closing]
  have isText : writtenAll fragments = source.toList := by decide
  have stem : freshStem source.toList = "P2_".toList := by decide
  obtain ⟨-, -, -, written, -, inTokens⟩ := freshStem_apart source
  refine ⟨proper, isText, stem, ?_, ?_⟩
  · rw [(written fragments proper isText).1, stem]
    decide
  · obtain ⟨tokens, token, scanned, member, named⟩ : ∃ tokens token,
        Token.scan source.toList = .ok tokens ∧ token ∈ tokens ∧ token.name? = some "P1_" :=
      exists_named (by decide +kernel)
    obtain ⟨spelled, covers, escapes⟩ := inTokens tokens token scanned member
    refine ⟨tokens, token, scanned, member, named, fun within => ?_⟩
    rw [← stem] at within
    have escape := (escapes "P1_" 0 named within).1
    exact absurd (covers.isInfix.mem escape) (by decide)

/-- The search for a stem goes by the text of the pattern. An atom that is spelled with an escape
may be named just as a placeholder is. -/
theorem not_freshStem_apart :
    let source := "f('P\\x5f\\0', ?)"
    freshStem source.toList = "P_".toList ∧ segmentNames (compile source).segments = ["P_0"] ∧
      ∃ tokens token, Token.scan source.toList = .ok tokens ∧ token ∈ tokens ∧
        token.name? = some "P_0" := by
  intro source
  have stem : freshStem source.toList = "P_".toList := by decide
  have segments : (compile source).segments = [.literal "f('P\\x5f\\0', ".toList,
      .placeholder "P_0", .literal [')']] := by
    decide +kernel
  refine ⟨stem, ?_, exists_named (by decide +kernel)⟩
  rw [segments]
  rfl

end HornQuery.GoalPattern
