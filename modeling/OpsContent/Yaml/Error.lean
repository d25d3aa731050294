/-!
# What can be wrong with a YAML text

Causes for which a text is no YAML, or more than this library reads of it.
-/

namespace OpsContent

/-- Why a text is refused. -/
inductive YamlError where
  | controlCharacter
  | staleKey
  | badTokenStart
  | entryNotAllowed
  | keyNotAllowed
  | valueNotAllowed
  | directiveName
  | unknownDirective
  | directiveVersion
  | directiveEnd
  | directiveTag
  | incompatibleVersion
  | repeatedVersion
  | repeatedTag
  | documentStart
  | anchorName
  | tagHandle
  | tagText
  | tagEscape
  | tagEnd
  | undefinedTagHandle
  | zeroIndentation
  | blockScalarHeader
  | tabIndentation
  | documentMarkInScalar
  | unclosedScalar
  | unknownEscape
  | badEscapeDigits
  | badEscapeCode
  | colonInScalar
  | nodeContent
  | sequenceEntry
  | mappingKey
  | flowSequenceEntry
  | flowMappingEntry
  | unknownAnchor
  | severalDocuments
  deriving DecidableEq

def YamlError.message : YamlError → String
  | .controlCharacter => "control characters are not allowed"
  | .staleKey => "could not find expected ':'"
  | .badTokenStart => "found character that cannot start any token"
  | .entryNotAllowed => "block sequence entries are not allowed in this context"
  | .keyNotAllowed => "mapping keys are not allowed in this context"
  | .valueNotAllowed => "mapping values are not allowed in this context"
  | .directiveName => "could not find expected directive name"
  | .unknownDirective => "found unknown directive name"
  | .directiveVersion => "did not find expected version number"
  | .directiveEnd => "did not find expected comment or line break"
  | .directiveTag => "did not find expected tag"
  | .incompatibleVersion => "found incompatible YAML document"
  | .repeatedVersion => "found duplicate %YAML directive"
  | .repeatedTag => "found duplicate %TAG directive"
  | .documentStart => "did not find expected <document start>"
  | .anchorName => "did not find expected alphabetic or numeric character"
  | .tagHandle => "did not find expected '!'"
  | .tagText => "did not find expected tag URI"
  | .tagEscape => "did not find URI escaped octet"
  | .tagEnd => "did not find expected whitespace or line break"
  | .undefinedTagHandle => "found undefined tag handle"
  | .zeroIndentation => "found an indentation indicator equal to 0"
  | .blockScalarHeader => "did not find expected comment or line break"
  | .tabIndentation => "found a tab character where an indentation space is expected"
  | .documentMarkInScalar => "found unexpected document indicator"
  | .unclosedScalar => "found unexpected end of stream"
  | .unknownEscape => "found unknown escape character"
  | .badEscapeDigits => "did not find expected hexdecimal number"
  | .badEscapeCode => "found invalid Unicode character escape code"
  | .colonInScalar => "found unexpected ':'"
  | .nodeContent => "did not find expected node content"
  | .sequenceEntry => "did not find expected '-' indicator"
  | .mappingKey => "did not find expected key"
  | .flowSequenceEntry => "did not find expected ',' or ']'"
  | .flowMappingEntry => "did not find expected ',' or '\x7d'"
  | .unknownAnchor => "unknown anchor"
  | .severalDocuments =>
    "deserializing from YAML containing more than one document is not supported"

end OpsContent
