/-
**Texts as bytes.**

Files hold bytes; a text file holds the UTF-8 form of its characters.

* `decodeUtf8`: the characters that some bytes encode, or the first place where they do not;
* `Utf8Error.message`: the words for such a place;
* `encodeUtf8`: the bytes of a text.
-/

namespace PromptMarkup.Text

/-- The first place at which bytes fail to be UTF-8. -/
inductive Utf8Error where
  /-- The `length` bytes from `index` on begin no character. -/
  | invalid (index length : Nat)
  /-- The bytes end inside the character that starts at `index`. -/
  | incomplete (index : Nat)
  deriving DecidableEq, Repr

/-- The words for a failure to decode. -/
def Utf8Error.message : Utf8Error → String
  | .invalid index length =>
    "invalid utf-8 sequence of " ++ toString length ++ " bytes from index " ++ toString index
  | .incomplete index => "incomplete utf-8 byte sequence from index " ++ toString index

/-- A byte that continues a character. -/
def isTail (byte : UInt8) : Bool := 0x80 ≤ byte && byte ≤ 0xBF

/-- The bytes that may follow the first byte of a character of three or four bytes. -/
def isSecond (lead second : UInt8) : Bool :=
  if lead = 0xE0 then 0xA0 ≤ second && second ≤ 0xBF
  else if lead = 0xED then 0x80 ≤ second && second ≤ 0x9F
  else if lead = 0xF0 then 0x90 ≤ second && second ≤ 0xBF
  else if lead = 0xF4 then 0x80 ≤ second && second ≤ 0x8F
  else isTail second

/-- The number of bytes of the character that a byte begins; zero when it begins none. -/
def leadWidth (lead : UInt8) : Nat :=
  if lead ≤ 0x7F then 1
  else if 0xC2 ≤ lead && lead ≤ 0xDF then 2
  else if 0xE0 ≤ lead && lead ≤ 0xEF then 3
  else if 0xF0 ≤ lead && lead ≤ 0xF4 then 4
  else 0

/-- The low six bits of a byte. -/
def tailBits (byte : UInt8) : Nat := byte.toNat % 64

/-- The characters of some bytes that stand at `index` in their file. -/
def decodeUtf8From (index : Nat) : List UInt8 → Except Utf8Error (List Char)
  | [] => .ok []
  | lead :: rest =>
    match leadWidth lead, rest with
    | 1, rest => (decodeUtf8From (index + 1) rest).map (Char.ofNat lead.toNat :: ·)
    | 2, [] => .error (.incomplete index)
    | 2, second :: rest =>
      if isTail second then
        (decodeUtf8From (index + 2) rest).map
          (Char.ofNat ((lead.toNat % 32) * 64 + tailBits second) :: ·)
      else .error (.invalid index 1)
    | 3, [] => .error (.incomplete index)
    | 3, second :: rest =>
      if isSecond lead second then
        match rest with
        | [] => .error (.incomplete index)
        | third :: rest =>
          if isTail third then
            (decodeUtf8From (index + 3) rest).map
              (Char.ofNat ((lead.toNat % 16) * 4096 + tailBits second * 64 + tailBits third) :: ·)
          else .error (.invalid index 2)
      else .error (.invalid index 1)
    | 4, [] => .error (.incomplete index)
    | 4, second :: rest =>
      if isSecond lead second then
        match rest with
        | [] => .error (.incomplete index)
        | third :: rest =>
          if isTail third then
            match rest with
            | [] => .error (.incomplete index)
            | fourth :: rest =>
              if isTail fourth then
                (decodeUtf8From (index + 4) rest).map
                  (Char.ofNat ((lead.toNat % 8) * 262144 + tailBits second * 4096
                    + tailBits third * 64 + tailBits fourth) :: ·)
              else .error (.invalid index 3)
          else .error (.invalid index 2)
      else .error (.invalid index 1)
    | _, _ => .error (.invalid index 1)

/-- The text that some bytes encode. -/
def decodeUtf8 (bytes : List UInt8) : Except Utf8Error String :=
  (decodeUtf8From 0 bytes).map String.ofList

/-- The bytes of a text. -/
def encodeUtf8 (text : String) : List UInt8 := text.toUTF8.toList

end PromptMarkup.Text
