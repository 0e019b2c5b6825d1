import TagCheck.CoreLibrary.Stub

namespace TagCheck.CoreLibrary

/-!
# Exceptions, time and mathematics

The remaining classes and modules.
-/

open Stub

/-- The `Exception` class. -/
def exceptionStub : Stub :=
  .namespaceStub .classNamespace "Exception" none [
    method "initialize" [.optional "message" "nil"] ["@param message [String, nil]"],
    method "message" [] ["@return [String]"],
    method "full_message" [.rest "args"] ["@return [String]"],
    method "backtrace" [] ["@return [Array<String>, nil]"],
    method "cause" [] ["@return [Exception, nil]"],
    method "set_backtrace" [.required "backtrace"] ["@return [Array<String>]"],
    method "inspect" [] ["@return [String]"],
    classMethod "exception" [.rest "args"] ["@return [self]"]]

/-- The `Time` class. -/
def timeStub : Stub :=
  .namespaceStub .classNamespace "Time" none [
    .inclusion "Comparable",
    classMethod "now" [] ["@return [Time]"],
    classMethod "at" [.required "seconds"] ["@return [Time]"],
    method "to_i" [] ["@return [Integer]"],
    method "to_f" [] ["@return [Float]"],
    method "strftime" [.required "format"] ["@param format [String]", "@return [String]"],
    method "year" [] ["@return [Integer]"],
    method "month" [] ["@return [Integer]"],
    method "day" [] ["@return [Integer]"],
    method "hour" [] ["@return [Integer]"],
    method "min" [] ["@return [Integer]"],
    method "sec" [] ["@return [Integer]"],
    method "+" [.required "seconds"] ["@param seconds [Numeric]", "@return [Time]"],
    method "-" [.required "other"] ["@return [Time, Float]"],
    method "iso8601" [.optional "digits" "0"] ["@return [String]"]]

/-- The `Math` module. -/
def mathStub : Stub :=
  .namespaceStub .moduleNamespace "Math" none [
    .constant "PI" "3.141592653589793",
    .constant "E" "2.718281828459045",
    classMethod "sqrt" [.required "value"] ["@param value [Numeric]", "@return [Float]"],
    classMethod "log" [.required "value", .optional "base" "nil"] ["@return [Float]"],
    classMethod "sin" [.required "value"] ["@return [Float]"],
    classMethod "cos" [.required "value"] ["@return [Float]"]]

/-- The `Benchmark` module. -/
def benchmarkStub : Stub :=
  .namespaceStub .moduleNamespace "Benchmark" none [
    classMethod "measure" [.optional "label" "''"]
      ["@param label [String]", "@return [Benchmark::Tms]"],
    classMethod "realtime" [] ["@return [Float]"],
    classMethod "bm" [.optional "label_width" "0", .rest "labels"]
      ["@return [Array<Benchmark::Tms>]"],
    .namespaceStub .classNamespace "Tms" none [
      method "time" [] [],
      method "real" [] ["@return [Float]"],
      method "utime" [] ["@return [Float]"],
      method "stime" [] ["@return [Float]"],
      method "total" [] ["@return [Float]"],
      method "to_s" [] ["@return [String]"]]]

/-- The classes of exceptions, which add no methods of their own. -/
def exceptionClassStubs : List Stub := [
  .namespaceStub .classNamespace "ScriptError" (some "Exception") [],
  .namespaceStub .classNamespace "NotImplementedError" (some "ScriptError") [],
  .namespaceStub .classNamespace "StandardError" (some "Exception") [],
  .namespaceStub .classNamespace "RuntimeError" (some "StandardError") [],
  .namespaceStub .classNamespace "ArgumentError" (some "StandardError") [],
  .namespaceStub .classNamespace "TypeError" (some "StandardError") [],
  .namespaceStub .classNamespace "NameError" (some "StandardError") [],
  .namespaceStub .classNamespace "NoMethodError" (some "NameError") [],
  .namespaceStub .classNamespace "IndexError" (some "StandardError") [],
  .namespaceStub .classNamespace "KeyError" (some "IndexError") [],
  .namespaceStub .classNamespace "StopIteration" (some "IndexError") [],
  .namespaceStub .classNamespace "RangeError" (some "StandardError") [],
  .namespaceStub .classNamespace "ZeroDivisionError" (some "StandardError") [],
  .namespaceStub .classNamespace "IOError" (some "StandardError") []]

end TagCheck.CoreLibrary
