namespace DecisionTree.Text

def sixBits? (c : Char) : Option Nat :=
  if c.isUpper then some (c.toNat - 'A'.toNat)
  else if c.isLower then some (c.toNat - 'a'.toNat + 26)
  else if c.isDigit then some (c.toNat - '0'.toNat + 52)
  else if c = '+' then some 62
  else if c = '/' then some 63
  else none

def bytesOfBase64? : List Char → Option (List UInt8)
  | [] => some []
  | [a, b, '=', '='] => do
    let bits := (← sixBits? a) * 64 + (← sixBits? b)
    if bits % 16 = 0 then return [UInt8.ofNat (bits / 16)] else none
  | [a, b, c, '='] => do
    let bits := ((← sixBits? a) * 64 + (← sixBits? b)) * 64 + (← sixBits? c)
    if bits % 4 = 0 then return [UInt8.ofNat (bits / 1024), UInt8.ofNat (bits / 4)] else none
  | a :: b :: c :: d :: rest => do
    let bits := (((← sixBits? a) * 64 + (← sixBits? b)) * 64 + (← sixBits? c)) * 64 + (← sixBits? d)
    let later ← bytesOfBase64? rest
    return UInt8.ofNat (bits / 65536) :: UInt8.ofNat (bits / 256) :: UInt8.ofNat bits :: later
  | _ => none

/-- The text whose bytes are written in base64; blanks and line ends between the digits do not
count. -/
def ofBase64? (written : String) : Option String := do
  let bytes ← bytesOfBase64? (written.toList.filter (!·.isWhitespace))
  String.fromUTF8? ⟨bytes.toArray⟩

end DecisionTree.Text
