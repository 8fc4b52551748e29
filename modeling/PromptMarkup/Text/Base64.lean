/-
**Base 64.**

Bytes written with sixty-four letters, three bytes to four letters, padded with `=`.

* `base64Letter`: the letter of a six-bit number;
* `base64`: the written form of some bytes.
-/

namespace PromptMarkup.Text

/-- The letter of a six-bit number. -/
def base64Letter (bits : Nat) : Char :=
  if bits < 26 then Char.ofNat ('A'.toNat + bits)
  else if bits < 52 then Char.ofNat ('a'.toNat + (bits - 26))
  else if bits < 62 then Char.ofNat ('0'.toNat + (bits - 52))
  else if bits = 62 then '+'
  else '/'

/-- The letters of some bytes. -/
def base64Letters : List UInt8 → List Char
  | [] => []
  | [first] =>
    let bits := first.toNat * 16
    [base64Letter (bits / 64), base64Letter (bits % 64), '=', '=']
  | [first, second] =>
    let bits := (first.toNat * 256 + second.toNat) * 4
    [base64Letter (bits / 4096), base64Letter (bits / 64 % 64), base64Letter (bits % 64), '=']
  | first :: second :: third :: rest =>
    let bits := first.toNat * 65536 + second.toNat * 256 + third.toNat
    base64Letter (bits / 262144) :: base64Letter (bits / 4096 % 64)
      :: base64Letter (bits / 64 % 64) :: base64Letter (bits % 64) :: base64Letters rest

/-- The written form of some bytes. -/
def base64 (bytes : List UInt8) : String := String.ofList (base64Letters bytes)

end PromptMarkup.Text
