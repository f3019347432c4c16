import RuneMachine.Text.Basic

namespace RuneMachine

inductive Charset where
  | ascii | latin1 | utf8 | utf8Marked | utf16LE | utf16BE
  deriving DecidableEq, Repr

namespace Charset

def isNameChar (c : CodePoint) : Bool :=
  (0x30 ≤ c && c ≤ 0x39) || (0x41 ≤ c && c ≤ 0x5a) || (0x61 ≤ c && c ≤ 0x7a) || c == 0x2e

def lowerCase (c : CodePoint) : CodePoint := if 0x41 ≤ c && c ≤ 0x5a then c + 0x20 else c

def joined (due : Bool) : Text → Text
  | [] => []
  | c :: cs =>
    if isNameChar c then (if due then [0x5f] else []) ++ lowerCase c :: joined false cs
    else joined true cs

def normalName (name : Text) : Text := joined false (name.dropWhile fun c => !isNameChar c)

def lookup {α : Type} (names aliases : List (String × α)) (name : Text) : Option α :=
  let normal := normalName name
  let pointless := normal.map fun c => if c == 0x2e then 0x5f else c
  let named (spelling : Text) (known : String × α) : Bool := Text.ofString known.1 == spelling
  if name.contains 0 then none
  else
    ((names ++ aliases).find? (named normal) <|> aliases.find? (named pointless)).map (·.2)

def names : List (String × Charset) :=
  [("ascii", .ascii), ("latin_1", .latin1), ("utf_8", .utf8), ("utf_8_sig", .utf8Marked),
    ("utf_16_le", .utf16LE), ("utf_16_be", .utf16BE)]

def registered : Charset → List String
  | .ascii =>
    ["us_ascii", "us", "646", "iso646_us", "iso_646.irv_1991", "iso_ir_6", "ansi_x3.4_1968",
      "ansi_x3_4_1968", "ansi_x3.4_1986", "cp367", "ibm367", "csascii"]
  | .latin1 =>
    ["latin1", "latin", "l1", "iso_8859_1", "iso8859_1", "iso8859", "8859", "iso_8859_1_1987",
      "iso_ir_100", "cp819", "ibm819", "csisolatin1"]
  | .utf8 => ["utf8", "utf", "u8", "utf8_ucs2", "utf8_ucs4", "cp65001"]
  | .utf8Marked => []
  | .utf16LE => ["utf_16le", "unicodelittleunmarked"]
  | .utf16BE => ["utf_16be", "unicodebigunmarked"]

def aliases : List (String × Charset) :=
  names.flatMap fun (_, charset) => (registered charset).map (·, charset)

/-- The encodings that text is read from are these six. Any other name is unknown here, also if it
is the name of an encoding elsewhere. -/
def ofName? (name : Text) : Option Charset := lookup names aliases name

def label : Charset → Text
  | .ascii => Text.ofString "ascii"
  | .latin1 => Text.ofString "latin-1"
  | .utf8 | .utf8Marked => Text.ofString "utf-8"
  | .utf16LE => Text.ofString "utf-16-le"
  | .utf16BE => Text.ofString "utf-16-be"

end Charset

def utf8Mark : Bytes := [0xef, 0xbb, 0xbf]

end RuneMachine
