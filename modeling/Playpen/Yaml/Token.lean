import Playpen.Yaml.Tag

namespace Playpen.Yaml

inductive Token.Kind
  | streamEnd
  | directive (d : Directive)
  | documentStart
  | documentEnd
  | blockSequence
  | blockMapping
  | blockEnd
  | flowSequence
  | flowMapping
  | flowSequenceEnd
  | flowMappingEnd
  | blockEntry
  | flowEntry
  | key
  | value
  | reference (name : String)
  | anchor (name : String)
  | tag (t : Tag)
  | scalar (text : List Char) (plain : Bool)
deriving DecidableEq

structure Token where
  kind : Token.Kind
  start : Mark
  stop : Mark
deriving DecidableEq

def Token.Kind.name : Token.Kind → String
  | streamEnd => "<stream end>"
  | directive _ => "<directive>"
  | documentStart => "<document start>"
  | documentEnd => "<document end>"
  | blockSequence => "<block sequence start>"
  | blockMapping => "<block mapping start>"
  | blockEnd => "<block end>"
  | flowSequence => "["
  | flowMapping => "\x7b"
  | flowSequenceEnd => "]"
  | flowMappingEnd => "\x7d"
  | blockEntry => "-"
  | flowEntry => ","
  | key => "?"
  | value => ":"
  | reference _ => "<alias>"
  | anchor _ => "<anchor>"
  | tag _ => "<tag>"
  | scalar .. => "<scalar>"

def Token.Kind.quoted (k : Token.Kind) : String := s!"'{k.name}'"

end Playpen.Yaml
