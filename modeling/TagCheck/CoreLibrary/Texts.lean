import TagCheck.CoreLibrary.Stub

namespace TagCheck.CoreLibrary

/-!
# Strings, symbols and patterns

The classes of texts and of patterns on them.
-/

open Stub

/-- The `String` class. -/
def stringStub : Stub :=
  .namespaceStub .classNamespace "String" none [
    .inclusion "Comparable",
    method "+" [.required "other"] ["@param other [String]", "@return [String]"],
    method "*" [.required "count"] ["@param count [Integer]", "@return [String]"],
    method "<<" [.required "other"] ["@return [String]"],
    method "=~" [.required "other"] ["@return [Integer, nil]"],
    method "<=>" [.required "other"] ["@param other [String]", "@return [Integer, nil]"],
    method "[]" [.rest "args"] ["@return [String, nil]"],
    method "upcase" [] ["@return [String]"],
    method "downcase" [] ["@return [String]"],
    method "capitalize" [] ["@return [String]"],
    method "swapcase" [] ["@return [String]"],
    method "strip" [] ["@return [String]"],
    method "lstrip" [] ["@return [String]"],
    method "rstrip" [] ["@return [String]"],
    method "chomp" [.optional "separator" "nil"] ["@return [String]"],
    method "chop" [] ["@return [String]"],
    method "reverse" [] ["@return [String]"],
    method "squeeze" [.rest "args"] ["@return [String]"],
    method "succ" [] ["@return [String]"],
    method "sub" [.required "pattern", .rest "args"] ["@return [String]"],
    method "gsub" [.required "pattern", .rest "args"] ["@return [String]"],
    method "tr" [.required "from", .required "to"] ["@return [String]"],
    method "center" [.required "width", .optional "padding" "' '"] ["@return [String]"],
    method "ljust" [.required "width", .optional "padding" "' '"] ["@return [String]"],
    method "rjust" [.required "width", .optional "padding" "' '"] ["@return [String]"],
    method "to_s" [] ["@return [String]"],
    method "to_str" [] ["@return [String]"],
    method "inspect" [] ["@return [String]"],
    method "to_sym" [] ["@return [Symbol]"],
    method "intern" [] ["@return [Symbol]"],
    method "to_i" [.optional "base" "10"] ["@return [Integer]"],
    method "to_f" [] ["@return [Float]"],
    method "length" [] ["@return [Integer]"],
    method "size" [] ["@return [Integer]"],
    method "bytesize" [] ["@return [Integer]"],
    method "split" [.optional "pattern" "nil", .optional "limit" "nil"]
      ["@return [Array<String>]"],
    method "chars" [] ["@return [Array<String>]"],
    method "lines" [] ["@return [Array<String>]"],
    method "bytes" [] ["@return [Array<Integer>]"],
    method "include?" [.required "other"] ["@param other [String]", "@return [Boolean]"],
    method "start_with?" [.rest "prefixes"] ["@return [Boolean]"],
    method "end_with?" [.rest "suffixes"] ["@return [Boolean]"],
    method "empty?" [] ["@return [Boolean]"],
    method "match" [.required "pattern"] ["@return [MatchData, nil]"],
    method "match?" [.required "pattern"] ["@return [Boolean]"],
    method "index" [.required "pattern", .optional "offset" "0"] ["@return [Integer, nil]"],
    method "scan" [.required "pattern"] ["@return [Array<String>]"],
    method "each_char" [] ["@return [self]"],
    method "each_line" [.rest "args"] ["@return [self]"],
    method "encoding" [] ["@return [String]"],
    method "force_encoding" [.required "encoding"] ["@return [String]"],
    method "freeze" [] ["@return [self]"],
    method "dup" [] ["@return [String]"],
    method "+@" [] ["@return [String]"],
    method "-@" [] ["@return [String]"]]

/-- The `Symbol` class. -/
def symbolStub : Stub :=
  .namespaceStub .classNamespace "Symbol" none [
    .inclusion "Comparable",
    method "to_s" [] ["@return [String]"],
    method "id2name" [] ["@return [String]"],
    method "to_sym" [] ["@return [self]"],
    method "to_proc" [] ["@return [Proc]"],
    method "length" [] ["@return [Integer]"],
    method "size" [] ["@return [Integer]"],
    method "upcase" [] ["@return [Symbol]"],
    method "downcase" [] ["@return [Symbol]"],
    method "inspect" [] ["@return [String]"],
    method "<=>" [.required "other"] ["@return [Integer, nil]"]]

/-- The `Regexp` class. -/
def regexpStub : Stub :=
  .namespaceStub .classNamespace "Regexp" none [
    method "match" [.required "string", .optional "position" "0"]
      ["@param string [String]", "@return [MatchData, nil]"],
    method "match?" [.required "string", .optional "position" "0"]
      ["@param string [String]", "@return [Boolean]"],
    method "=~" [.required "string"] ["@return [Integer, nil]"],
    method "===" [.required "string"] ["@return [Boolean]"],
    method "source" [] ["@return [String]"],
    method "names" [] ["@return [Array<String>]"],
    classMethod "escape" [.required "string"] ["@param string [String]", "@return [String]"],
    classMethod "union" [.rest "patterns"] ["@return [Regexp]"]]

/-- The `MatchData` class. -/
def matchDataStub : Stub :=
  .namespaceStub .classNamespace "MatchData" none [
    method "[]" [.rest "args"] ["@return [String, nil]"],
    method "captures" [] ["@return [Array<String>]"],
    method "named_captures" [] ["@return [Hash{String => String}]"],
    method "to_a" [] ["@return [Array<String>]"],
    method "pre_match" [] ["@return [String]"],
    method "post_match" [] ["@return [String]"]]

end TagCheck.CoreLibrary
