/-! # Problems of a YAML text

What a text can get wrong, from its characters up to the values that its
scalars claim to be.
-/

namespace ManifestModules.Yaml

inductive Problem where
  | controlCharacter
  | unexpectedCharacter
  | missingColon
  | sequenceNotAllowed
  | keyNotAllowed
  | valueNotAllowed
  | unknownDirective
  | malformedDirective
  | badVersionNumber
  | badTagHandle
  | badTag
  | badAnchorName
  | badBlockHeader
  | tabIndentation
  | unexpectedMarker
  | unexpectedEnd
  | unknownEscape
  | badEscapeCode
  | unexpectedColon
  | missingDocumentStart
  | duplicateDirective
  | incompatibleVersion
  | undefinedTagHandle
  | missingContent
  | missingEntry
  | missingKey
  | missingFlowEntry
  | unknownAnchor
  | repetitionLimit
  | recursionLimit
  | duplicateKey
  | invalidScalar (expected : String)
  | integerRange
  | severalDocuments
deriving DecidableEq, Repr

def Problem.message : Problem → String
  | .controlCharacter => "control characters are not allowed"
  | .unexpectedCharacter => "found character that cannot start any token"
  | .missingColon => "could not find expected ':'"
  | .sequenceNotAllowed => "block sequence entries are not allowed in this context"
  | .keyNotAllowed => "mapping keys are not allowed in this context"
  | .valueNotAllowed => "mapping values are not allowed in this context"
  | .unknownDirective => "found unknown directive name"
  | .malformedDirective => "did not find expected comment or line break"
  | .badVersionNumber => "did not find expected version number"
  | .badTagHandle => "did not find expected '!'"
  | .badTag => "did not find expected tag URI"
  | .badAnchorName => "did not find expected alphabetic or numeric character"
  | .badBlockHeader => "found an invalid block scalar header"
  | .tabIndentation => "found a tab character where an indentation space is expected"
  | .unexpectedMarker => "found unexpected document indicator"
  | .unexpectedEnd => "found unexpected end of stream"
  | .unknownEscape => "found unknown escape character"
  | .badEscapeCode => "found invalid Unicode character escape code"
  | .unexpectedColon => "found unexpected ':'"
  | .missingDocumentStart => "did not find expected <document start>"
  | .duplicateDirective => "found duplicate directive"
  | .incompatibleVersion => "found incompatible YAML document"
  | .undefinedTagHandle => "found undefined tag handle"
  | .missingContent => "did not find expected node content"
  | .missingEntry => "did not find expected '-' indicator"
  | .missingKey => "did not find expected key"
  | .missingFlowEntry => "did not find expected ',' or closing bracket"
  | .unknownAnchor => "unknown anchor"
  | .repetitionLimit => "repetition limit exceeded"
  | .recursionLimit => "recursion limit exceeded"
  | .duplicateKey => "duplicate entry in a mapping"
  | .invalidScalar expected => s!"invalid value, expected {expected}"
  | .integerRange => "integer is out of range"
  | .severalDocuments => "found more than one document"

end ManifestModules.Yaml
