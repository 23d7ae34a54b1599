import SerialBridge.Bytes
import SerialBridge.Text

/-!
# Hexadecimal text

Lower-case digits are written, digits of either case are read. Reading works on the UTF-8 codes of
a text, and an error names the code and the offset where reading stopped.
-/

namespace SerialBridge.Hex

def digit (n : Nat) : Char := Nat.digitChar (n % 16)

/-- The lowest `width` digits of a number, highest first. -/
def digits : Nat → Nat → List Char
  | 0, _ => []
  | width + 1, n => digits width (n / 16) ++ [digit n]

def fixed (width n : Nat) : String := String.ofList (digits width n)

def encode (bytes : Bytes) : String :=
  String.ofList (bytes.flatMap fun b => digits 2 b.toNat)

inductive Error where
  | oddLength
  | invalid (code : UInt8) (offset : Nat)
  deriving DecidableEq, Repr

/-- The value of a digit of either case. -/
def value? (code : UInt8) : Option UInt8 :=
  if 0x30 ≤ code ∧ code ≤ 0x39 then some (code - 0x30)
  else if 0x41 ≤ code ∧ code ≤ 0x46 then some (code - 0x37)
  else if 0x61 ≤ code ∧ code ≤ 0x66 then some (code - 0x57)
  else none

def value (offset : Nat) (code : UInt8) : Except Error UInt8 :=
  match value? code with
  | some v => .ok v
  | none => .error (.invalid code offset)

/-- Two digits to a byte, high digit first; `offset` is where the codes start in the whole text. -/
def pairs (offset : Nat) : List UInt8 → Except Error Bytes
  | high :: low :: rest => do
    let h ← value offset high
    let l ← value (offset + 1) low
    let bytes ← pairs (offset + 2) rest
    return (h * 16 + l) :: bytes
  | _ => .ok []

/-- An odd number of codes is reported before any code that is no digit. -/
def decodeCodes (codes : List UInt8) : Except Error Bytes :=
  if codes.length % 2 = 1 then .error .oddLength else pairs 0 codes

/-- The UTF-8 codes of a text. -/
def codes (text : List Char) : List UInt8 := text.flatMap String.utf8EncodeChar

def decode (text : String) : Except Error Bytes := decodeCodes (codes text.toList)

def Error.message : Error → String
  | .oddLength => "Odd number of digits"
  | .invalid code offset =>
    "Invalid character " ++ Text.quotedChar (Char.ofNat code.toNat) ++ " at position " ++
      toString offset

end SerialBridge.Hex

/-!
## Hex view

A dump of sixteen bytes a row: the offset of the row, the bytes in hexadecimal, and one glyph a
byte. A short last row is padded so that the columns stay where they are.
-/

namespace SerialBridge.HexView

/-- Digits in upper case. -/
def digits (digitCount n : Nat) : String :=
  String.ofList ((Hex.digits digitCount n).map Char.toUpper)

/-- One glyph a byte, byte 0 first: the code page of the first personal computers, with a full stop
for the two bytes that have no visible glyph. -/
def glyphs : Array Char :=
  (".☺☻♥♦♣♠•◘○◙♂♀♪♫☼►◄↕‼¶§▬↨↑↓→←∟↔▲▼ !\"#$%&'()*+,-./0123456789:;<=>?" ++
    "@ABCDEFGHIJKLMNOPQRSTUVWXYZ[\\]^_`abcdefghijklmnopqrstuvwxyz\x7b|\x7d~⌂" ++
    "ÇüéâäàåçêëèïîìÄÅÉæÆôöòûùÿÖÜø£Ø×ƒáíóúñÑªº¿⌐¬½¼¡«»░▒▓│┤╡╢╖╕╣║╗╝╜╛┐" ++
    "└┴┬├─┼╞╟╚╔╩╦╠═╬╧╨╤╥╙╘╒╕╫╪┘┌█▄▌▐▀αßΓ∏∑σµτΦθΩδ∞Øε∩≡±≥≤⌠⌡÷≈▫¨·√ⁿ²■.").toList.toArray

def glyph (b : UInt8) : Char := glyphs.getD b.toNat '.'

def width : Nat := 16

def blanks (n : Nat) : String := String.ofList (List.replicate n ' ')

/-- The row that starts at `start`, its two columns padded to the full width. -/
def row (start : Nat) (bytes : Bytes) : String :=
  let missing := width - bytes.length
  digits 8 start ++ "  " ++
    " ".intercalate (bytes.map (fun b => digits 2 b.toNat) ++ List.replicate missing "  ") ++ "  | " ++
    String.ofList (bytes.map glyph) ++ blanks missing ++ " |"

def rows (start : Nat) : List Bytes → List String
  | [] => []
  | bytes :: rest => row start bytes :: rows (start + width) rest

/-- Rows are joined by line feeds, and no line feed ends the text. No bytes at all still give one
row, with empty columns. -/
def render (bytes : Bytes) : String :=
  if bytes = [] then digits 8 0 ++ "    |  |"
  else "\n".intercalate (rows 0 (bytes.pieces width))

end SerialBridge.HexView
