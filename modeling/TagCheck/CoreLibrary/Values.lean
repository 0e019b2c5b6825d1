import TagCheck.CoreLibrary.Stub

namespace TagCheck.CoreLibrary

/-!
# Nil, truth values and numbers

The classes of plain values.
-/

open Stub

/-- The `NilClass` class. -/
def nilClassStub : Stub :=
  .namespaceStub .classNamespace "NilClass" none [
    method "to_s" [] ["@return [String]"],
    method "to_a" [] ["@return [Array]"],
    method "to_i" [] ["@return [Integer]"],
    method "to_f" [] ["@return [Float]"],
    method "to_h" [] ["@return [Hash]"],
    method "nil?" [] ["@return [Boolean]"],
    method "inspect" [] ["@return [String]"],
    method "&" [.required "other"] ["@return [Boolean]"],
    method "|" [.required "other"] ["@return [Boolean]"]]

/-- The `TrueClass` class. -/
def trueClassStub : Stub :=
  .namespaceStub .classNamespace "TrueClass" none [
    method "&" [.required "other"] ["@return [Boolean]"],
    method "|" [.required "other"] ["@return [Boolean]"],
    method "^" [.required "other"] ["@return [Boolean]"],
    method "to_s" [] ["@return [String]"]]

/-- The `FalseClass` class. -/
def falseClassStub : Stub :=
  .namespaceStub .classNamespace "FalseClass" none [
    method "&" [.required "other"] ["@return [Boolean]"],
    method "|" [.required "other"] ["@return [Boolean]"],
    method "^" [.required "other"] ["@return [Boolean]"],
    method "to_s" [] ["@return [String]"]]

/-- The `Boolean` class. -/
def booleanStub : Stub :=
  .namespaceStub .classNamespace "Boolean" none [
    method "&" [.required "other"] ["@return [Boolean]"],
    method "|" [.required "other"] ["@return [Boolean]"],
    method "^" [.required "other"] ["@return [Boolean]"],
    method "to_s" [] ["@return [String]"]]

/-- The `Numeric` class. -/
def numericStub : Stub :=
  .namespaceStub .classNamespace "Numeric" none [
    .inclusion "Comparable",
    method "+" [.required "other"] ["@param other [Numeric]", "@return [Numeric]"],
    method "-" [.required "other"] ["@param other [Numeric]", "@return [Numeric]"],
    method "*" [.required "other"] ["@param other [Numeric]", "@return [Numeric]"],
    method "/" [.required "other"] ["@param other [Numeric]", "@return [Numeric]"],
    method "<=>" [.required "other"] ["@param other [Numeric]", "@return [Integer]"],
    method "-@" [] ["@return [self]"],
    method "abs" [] ["@return [Numeric]"],
    method "zero?" [] ["@return [Boolean]"],
    method "positive?" [] ["@return [Boolean]"],
    method "negative?" [] ["@return [Boolean]"],
    method "integer?" [] ["@return [Boolean]"],
    method "to_i" [] ["@return [Integer]"],
    method "to_f" [] ["@return [Float]"],
    method "to_s" [] ["@return [String]"],
    method "round" [.optional "digits" "0"] ["@return [Numeric]"],
    method "floor" [] ["@return [Integer]"],
    method "ceil" [] ["@return [Integer]"],
    method "coerce" [.required "other"] ["@return [Array<Numeric>]"],
    method "step" [.rest "args"] ["@return [Enumerator]"]]

/-- The `Integer` class. -/
def integerStub : Stub :=
  .namespaceStub .classNamespace "Integer" (some "Numeric") [
    method "+" [.required "other"] ["@param other [Numeric]", "@return [Integer]"],
    method "-" [.required "other"] ["@param other [Numeric]", "@return [Integer]"],
    method "*" [.required "other"] ["@param other [Numeric]", "@return [Integer]"],
    method "/" [.required "other"] ["@param other [Numeric]", "@return [Integer]"],
    method "**" [.required "other"] ["@param other [Numeric]", "@return [Integer]"],
    method "&" [.required "other"] ["@return [Integer]"],
    method "|" [.required "other"] ["@return [Integer]"],
    method "<<" [.required "count"] ["@return [Integer]"],
    method ">>" [.required "count"] ["@return [Integer]"],
    method "times" [] ["@return [self]"],
    method "upto" [.required "limit"] ["@param limit [Integer]", "@return [self]"],
    method "downto" [.required "limit"] ["@param limit [Integer]", "@return [self]"],
    method "to_s" [.optional "base" "10"] ["@param base [Integer]", "@return [String]"],
    method "chr" [] ["@return [String]"],
    method "even?" [] ["@return [Boolean]"],
    method "odd?" [] ["@return [Boolean]"],
    method "succ" [] ["@return [Integer]"],
    method "pred" [] ["@return [Integer]"],
    method "abs" [] ["@return [Integer]"],
    method "to_i" [] ["@return [Integer]"],
    method "round" [.optional "digits" "0"] ["@return [Integer]"],
    method "digits" [] ["@return [Array<Integer>]"]]

/-- The `Float` class. -/
def floatStub : Stub :=
  .namespaceStub .classNamespace "Float" (some "Numeric") [
    method "+" [.required "other"] ["@param other [Numeric]", "@return [Float]"],
    method "-" [.required "other"] ["@param other [Numeric]", "@return [Float]"],
    method "*" [.required "other"] ["@param other [Numeric]", "@return [Float]"],
    method "/" [.required "other"] ["@param other [Numeric]", "@return [Float]"],
    method "**" [.required "other"] ["@param other [Numeric]", "@return [Float]"],
    method "abs" [] ["@return [Float]"],
    method "nan?" [] ["@return [Boolean]"],
    method "infinite?" [] ["@return [Integer, nil]"],
    method "finite?" [] ["@return [Boolean]"]]

end TagCheck.CoreLibrary
