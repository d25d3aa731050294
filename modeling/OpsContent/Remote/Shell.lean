/-!
# Words of a remote command

A command for the server's shell is text, so every name in it is quoted: it stands between
single quotes, and a single quote inside it is written as a closing quote, an escaped quote and
an opening quote.
-/

namespace OpsContent.Shell

def quotedChar (char : Char) : List Char :=
  if char = '\'' then ['\'', '\\', '\'', '\''] else [char]

def quoteChars (chars : List Char) : List Char :=
  '\'' :: chars.flatMap quotedChar ++ ['\'']

/-- A text as one word of the shell. -/
def quote (text : String) : String :=
  String.ofList (quoteChars text.toList)

end OpsContent.Shell
