namespace HornQuery.Text.Utf8

def replacement : Char := '\ufffd'

def isContinuation (byte : UInt8) : Bool :=
  0x80 ≤ byte && byte ≤ 0xbf

/-- The second bytes allowed after a leading byte of a sequence of three or four: those that
neither overlong forms, surrogates nor numbers above the last code point begin with. -/
def isSecond (lead byte : UInt8) : Bool :=
  if lead = 0xe0 then 0xa0 ≤ byte && byte ≤ 0xbf
  else if lead = 0xed then 0x80 ≤ byte && byte ≤ 0x9f
  else if lead = 0xf0 then 0x90 ≤ byte && byte ≤ 0xbf
  else if lead = 0xf4 then 0x80 ≤ byte && byte ≤ 0x8f
  else isContinuation byte

def payload (byte : UInt8) : Nat := byte.toNat % 64

def character (lead : UInt8) (rest : List UInt8) : Char × Nat :=
  if lead < 0x80 then (Char.ofNat lead.toNat, 1)
  else if 0xc2 ≤ lead && lead ≤ 0xdf then
    match rest with
    | second :: _ =>
        if isContinuation second then
          (Char.ofNat (lead.toNat % 32 * 64 + payload second), 2)
        else (replacement, 1)
    | [] => (replacement, 1)
  else if 0xe0 ≤ lead && lead ≤ 0xef then
    match rest with
    | second :: more =>
        if isSecond lead second then
          match more with
          | third :: _ =>
              if isContinuation third then
                (Char.ofNat ((lead.toNat % 16 * 64 + payload second) * 64 + payload third), 3)
              else (replacement, 2)
          | [] => (replacement, 2)
        else (replacement, 1)
    | [] => (replacement, 1)
  else if 0xf0 ≤ lead && lead ≤ 0xf4 then
    match rest with
    | second :: more =>
        if isSecond lead second then
          match more with
          | third :: others =>
              if isContinuation third then
                match others with
                | fourth :: _ =>
                    if isContinuation fourth then
                      let code := ((lead.toNat % 8 * 64 + payload second) * 64
                        + payload third) * 64 + payload fourth
                      (Char.ofNat code, 4)
                    else (replacement, 3)
                | [] => (replacement, 3)
              else (replacement, 2)
          | [] => (replacement, 2)
        else (replacement, 1)
    | [] => (replacement, 1)
  else (replacement, 1)

def decode : List UInt8 → List Char
  | [] => []
  | lead :: rest =>
      let (c, taken) := character lead rest
      c :: decode (rest.drop (taken - 1))
termination_by bytes => bytes.length
decreasing_by
  simp only [List.length_drop, List.length_cons]
  omega

end HornQuery.Text.Utf8
