/-!
# Blank characters and trimming

Names, settings and identifiers are compared after white space at their ends has been
removed. The characters removed are those with the Unicode property White_Space, so a
no-break space counts and a zero-width space does not.
-/

namespace OpsContent.Text

/-- White space in the sense of the Unicode property White_Space. -/
def isBlank (char : Char) : Bool :=
  let code := char.toNat
  (0x09 ≤ code && code ≤ 0x0D) || code == 0x20 || code == 0x85 || code == 0xA0 ||
    code == 0x1680 || (0x2000 ≤ code && code ≤ 0x200A) || code == 0x2028 || code == 0x2029 ||
    code == 0x202F || code == 0x205F || code == 0x3000

def trimStart (chars : List Char) : List Char :=
  chars.dropWhile isBlank

def trimEnd (chars : List Char) : List Char :=
  (chars.reverse.dropWhile isBlank).reverse

def trimChars (chars : List Char) : List Char :=
  trimEnd (trimStart chars)

/-- A text without blanks around it. -/
def trim (text : String) : String :=
  String.ofList (trimChars text.toList)

/-- Is there nothing but blanks? -/
def isAbsent (text : String) : Bool :=
  text.toList.all isBlank

def lowerAscii (text : String) : String :=
  String.ofList (text.toList.map Char.toLower)

/-- Are the texts the same but for the case of ASCII letters? -/
def equalIgnoringCase (left right : String) : Bool :=
  left.toList.map Char.toLower == right.toList.map Char.toLower

def startsWith (text start : String) : Bool :=
  start.toList.isPrefixOf text.toList

def endsWith (text ending : String) : Bool :=
  ending.toList.isSuffixOf text.toList

def holds (text : String) (char : Char) : Bool :=
  text.toList.contains char

def occursIn (part : List Char) : List Char → Bool
  | [] => part.isEmpty
  | first :: rest => part.isPrefixOf (first :: rest) || occursIn part rest

def replicate (count : Nat) (text : String) : String :=
  String.join (List.replicate count text)

def padRight (width : Nat) (text : String) : String :=
  text ++ String.ofList (List.replicate (width - text.length) ' ')

def padLeft (width : Nat) (text : String) : String :=
  String.ofList (List.replicate (width - text.length) ' ') ++ text

end OpsContent.Text
