import ZincModel.Text.Hexadecimal

/-!
# Texts as bytes

UTF-8, read in three ways. `pieces` cuts a row of bytes into characters and malformed pieces, each of the
latter as long as it could have been the start of a character. `decodeLossy` puts U+FFFD for each malformed
piece, `decode` stops at the first one and says where it stands, and `charsOfBlock` does the same for bytes that
others follow, where the last character may be unfinished.
-/

namespace ZincModel.Text.Utf8

/-- Why a piece is no character. -/
inductive Defect where
  | badStart
  | badContinuation
  | truncated
  deriving DecidableEq, Repr

/-- A piece of a row of bytes: a character, or some bytes that are none. -/
inductive Piece where
  | char (c : Char)
  | malformed (first : UInt8) (size : Nat) (defect : Defect)
  deriving DecidableEq

/-- What the first byte of a character says: how many bytes follow, and the bounds of the next one. -/
inductive Lead where
  | ascii
  | leads (following : Nat) (least greatest : UInt8)
  | invalid

/-- The reading of a first byte. -/
def Lead.ofByte (b : UInt8) : Lead :=
  if b < 0x80 then .ascii
  else if b < 0xC2 then .invalid
  else if b < 0xE0 then .leads 1 0x80 0xBF
  else if b = 0xE0 then .leads 2 0xA0 0xBF
  else if b = 0xED then .leads 2 0x80 0x9F
  else if b < 0xF0 then .leads 2 0x80 0xBF
  else if b = 0xF0 then .leads 3 0x90 0xBF
  else if b < 0xF4 then .leads 3 0x80 0xBF
  else if b = 0xF4 then .leads 3 0x80 0x8F
  else .invalid

/-- The byte can stand behind the second byte of a character. -/
def isContinuation (b : UInt8) : Bool := 0x80 ≤ b && b ≤ 0xBF

/-- The low bits of a continuation byte. -/
def payload (b : UInt8) : Nat := b.toNat % 64

/-- The characters and malformed pieces of a row of bytes. -/
def pieces : List UInt8 → List Piece
  | [] => []
  | a :: rest =>
    match Lead.ofByte a with
    | .ascii => .char (Char.ofNat a.toNat) :: pieces rest
    | .invalid => .malformed a 1 .badStart :: pieces rest
    | .leads following least greatest =>
      match rest with
      | [] => [.malformed a 1 .truncated]
      | b :: rest' =>
        if !(least ≤ b && b ≤ greatest) then .malformed a 1 .badContinuation :: pieces (b :: rest')
        else if following = 1 then
          .char (Char.ofNat (a.toNat % 32 * 64 + payload b)) :: pieces rest'
        else
          match rest' with
          | [] => [.malformed a 2 .truncated]
          | c :: rest'' =>
            if !isContinuation c then .malformed a 2 .badContinuation :: pieces (c :: rest'')
            else if following = 2 then
              .char (Char.ofNat ((a.toNat % 16 * 64 + payload b) * 64 + payload c)) :: pieces rest''
            else
              match rest'' with
              | [] => [.malformed a 3 .truncated]
              | d :: rest''' =>
                if !isContinuation d then .malformed a 3 .badContinuation :: pieces (d :: rest''')
                else
                  .char (Char.ofNat (((a.toNat % 8 * 64 + payload b) * 64 + payload c) * 64 + payload d))
                    :: pieces rest'''

/-- The bytes of a text. -/
def encode (s : List Char) : List UInt8 := s.flatMap String.utf8EncodeChar

/-- How many bytes a piece takes. -/
def Piece.size : Piece → Nat
  | .char c => (String.utf8EncodeChar c).length
  | .malformed _ size _ => size

/-- A piece as a character, a malformed one as U+FFFD. -/
def Piece.lossy : Piece → Char
  | .char c => c
  | .malformed .. => '\uFFFD'

/-- The text of a row of bytes, with U+FFFD for each malformed piece. -/
def decodeLossy (bytes : List UInt8) : List Char := (pieces bytes).map Piece.lossy

/-- The first malformed piece of a row of bytes, and its place. -/
structure Malformed where
  start : Nat
  first : UInt8
  size : Nat
  defect : Defect
  deriving DecidableEq

/-- The characters of the pieces up to the first malformed one, which starts `start` bytes further. -/
def charsOfPieces (start : Nat) : List Piece → Except Malformed (List Char)
  | [] => .ok []
  | .char c :: rest => (charsOfPieces (start + (Piece.char c).size) rest).map (c :: ·)
  | .malformed first size defect :: _ => .error ⟨start, first, size, defect⟩

/-- The text of a row of bytes, or its first malformed piece. -/
def decode (bytes : List UInt8) : Except Malformed (List Char) := charsOfPieces 0 (pieces bytes)

/-- The characters that a block completes and the bytes that it leaves over for the next one. -/
def charsOfBlock (start : Nat) (bytes : List UInt8) : Nat → List Piece → Except Malformed (List Char × List UInt8)
  | _, [] => .ok ([], [])
  | offset, .char c :: rest =>
    (charsOfBlock start bytes (offset + (Piece.char c).size) rest).map fun r => (c :: r.1, r.2)
  | offset, .malformed first size defect :: _ =>
    let left := bytes.drop offset
    if defect == .truncated then .ok ([], left)
    else
      match left with
      | [0xED, b] => if isContinuation b then .ok ([], left) else .error ⟨start + offset, first, size, defect⟩
      | _ => .error ⟨start + offset, first, size, defect⟩

/-- The reason in words. -/
def Defect.reason : Defect → String
  | .badStart => "invalid start byte"
  | .badContinuation => "invalid continuation byte"
  | .truncated => "unexpected end of data"

/-- The message for a malformed piece. -/
def Malformed.message (m : Malformed) : String :=
  let place :=
    if m.size = 1 then
      "byte 0x" ++ String.ofList (hexDigits false 2 m.first.toNat) ++ " in position " ++ toString m.start
    else "bytes in position " ++ toString m.start ++ "-" ++ toString (m.start + m.size - 1)
  "'utf-8' codec can't decode " ++ place ++ ": " ++ m.defect.reason

end ZincModel.Text.Utf8
