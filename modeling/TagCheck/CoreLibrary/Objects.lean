import TagCheck.CoreLibrary.Stub

namespace TagCheck.CoreLibrary

/-!
# Objects and modules

What every object, class and module answers to.
-/

open Stub

/-- The `BasicObject` class. -/
def basicObjectStub : Stub :=
  .namespaceStub .classNamespace "BasicObject" none [
    method "initialize" [] [],
    method "==" [.required "other"] ["@param other [Object]", "@return [Boolean]"],
    method "!=" [.required "other"] ["@param other [Object]", "@return [Boolean]"],
    method "!" [] ["@return [Boolean]"],
    method "equal?" [.required "other"] ["@param other [Object]", "@return [Boolean]"],
    method "instance_eval" [.rest "args"] ["@return [Object]"],
    method "__send__" [.required "name", .rest "args"] ["@return [Object]"],
    method "__id__" [] ["@return [Integer]"]]

/-- The `Kernel` module. -/
def kernelStub : Stub :=
  .namespaceStub .moduleNamespace "Kernel" none [
    method "puts" [.rest "args"] ["@return [nil]"],
    method "print" [.rest "args"] ["@return [nil]"],
    method "p" [.rest "args"] ["@return [Object]"],
    method "pp" [.rest "args"] ["@return [Object]"],
    method "require" [.required "name"] ["@param name [String]", "@return [Boolean]"],
    method "require_relative" [.required "name"] ["@param name [String]", "@return [Boolean]"],
    method "load" [.required "filename", .optional "wrap" "false"]
      ["@param filename [String]", "@return [Boolean]"],
    method "raise" [.rest "args"] [],
    method "fail" [.rest "args"] [],
    method "loop" [] ["@return [nil]"],
    method "lambda" [] ["@return [Proc]"],
    method "proc" [] ["@return [Proc]"],
    method "format" [.required "format", .rest "args"]
      ["@param format [String]", "@return [String]"],
    method "sprintf" [.required "format", .rest "args"]
      ["@param format [String]", "@return [String]"],
    method "rand" [.optional "max" "nil"] ["@return [Numeric]"],
    method "sleep" [.optional "duration" "nil"]
      ["@param duration [Numeric]", "@return [Integer]"],
    method "gets" [.rest "args"] ["@return [String, nil]"],
    method "block_given?" [] ["@return [Boolean]"],
    method "Integer" [.required "value", .optional "base" "nil"] ["@return [Integer]"],
    method "Float" [.required "value"] ["@return [Float]"],
    method "String" [.required "value"] ["@return [String]"],
    method "Array" [.required "value"] ["@return [Array]"],
    method "catch" [.optional "tag" "nil"] ["@return [Object]"],
    method "throw" [.required "tag", .optional "value" "nil"] [],
    method "caller" [.rest "args"] ["@return [Array<String>]"],
    method "__method__" [] ["@return [Symbol, nil]"],
    method "__callee__" [] ["@return [Symbol, nil]"],
    method "__dir__" [] ["@return [String, nil]"],
    method "at_exit" [] ["@return [Proc]"],
    method "exit" [.optional "status" "true"] [],
    method "abort" [.optional "message" "nil"] ["@param message [String]"],
    method "frozen?" [] ["@return [Boolean]"],
    method "to_s" [] ["@return [String]"],
    method "inspect" [] ["@return [String]"],
    method "freeze" [] ["@return [self]"],
    method "dup" [] ["@return [self]"],
    method "clone" [] ["@return [self]"],
    method "tap" [] ["@return [self]"],
    method "itself" [] ["@return [self]"],
    method "nil?" [] ["@return [Boolean]"],
    method "is_a?" [.required "klass"] ["@param klass [Class, Module]", "@return [Boolean]"],
    method "kind_of?" [.required "klass"] ["@param klass [Class, Module]", "@return [Boolean]"],
    method "instance_of?" [.required "klass"]
      ["@param klass [Class, Module]", "@return [Boolean]"],
    method "respond_to?" [.required "name", .optional "include_all" "false"]
      ["@param name [Symbol, String]", "@return [Boolean]"],
    method "send" [.required "name", .rest "args"]
      ["@param name [Symbol, String]", "@return [Object]"],
    method "public_send" [.required "name", .rest "args"]
      ["@param name [Symbol, String]", "@return [Object]"],
    method "instance_variable_get" [.required "name"]
      ["@param name [Symbol, String]", "@return [Object]"],
    method "instance_variable_set" [.required "name", .required "value"]
      ["@param name [Symbol, String]", "@return [Object]"],
    method "instance_variables" [] ["@return [Array<Symbol>]"],
    method "methods" [] ["@return [Array<Symbol>]"],
    method "hash" [] ["@return [Integer]"],
    method "object_id" [] ["@return [Integer]"],
    method "eql?" [.required "other"] ["@param other [Object]", "@return [Boolean]"],
    method "===" [.required "other"] ["@param other [Object]", "@return [Boolean]"],
    method "extend" [.rest "modules"] ["@return [Object]"],
    method "instance_exec" [.rest "args"] ["@return [Object]"],
    method "define_singleton_method" [.required "name", .rest "args"] ["@return [Object]"],
    method "singleton_class" [] ["@return [Class]"],
    method "instance_variable_defined?" [.required "name"] ["@return [Boolean]"]]

/-- The `Object` class. -/
def objectStub : Stub :=
  .namespaceStub .classNamespace "Object" (some "BasicObject") [
    .inclusion "Kernel"]

/-- The `Module` class. -/
def moduleStub : Stub :=
  .namespaceStub .classNamespace "Module" none [
    method "name" [] ["@return [String, nil]"],
    method "to_s" [] ["@return [String]"],
    method "attr_reader" [.rest "names"] ["@return [nil]"],
    method "attr_writer" [.rest "names"] ["@return [nil]"],
    method "attr_accessor" [.rest "names"] ["@return [nil]"],
    method "attr" [.rest "names"] ["@return [nil]"],
    method "include" [.rest "modules"] ["@return [self]"],
    method "extend" [.rest "modules"] ["@return [self]"],
    method "prepend" [.rest "modules"] ["@return [self]"],
    method "include?" [.required "mod"] ["@param mod [Module]", "@return [Boolean]"],
    method "ancestors" [] ["@return [Array<Module>]"],
    method "included_modules" [] ["@return [Array<Module>]"],
    method "private" [.rest "names"] [],
    method "public" [.rest "names"] [],
    method "protected" [.rest "names"] [],
    method "module_function" [.rest "names"] [],
    method "private_class_method" [.rest "names"] [],
    method "public_class_method" [.rest "names"] [],
    method "private_constant" [.rest "names"] [],
    method "define_method" [.required "name", .optional "method" "nil"]
      ["@param name [Symbol, String]", "@return [Symbol]"],
    method "alias_method" [.required "new_name", .required "old_name"]
      ["@param new_name [Symbol, String]", "@param old_name [Symbol, String]", "@return [self]"],
    method "instance_methods" [.optional "include_super" "true"] ["@return [Array<Symbol>]"],
    method "method_defined?" [.required "name", .optional "inherit" "true"]
      ["@param name [Symbol, String]", "@return [Boolean]"],
    method "const_get" [.required "name", .optional "inherit" "true"]
      ["@param name [Symbol, String]", "@return [Object]"],
    method "const_set" [.required "name", .required "value"]
      ["@param name [Symbol, String]", "@return [Object]"],
    method "const_defined?" [.required "name", .optional "inherit" "true"]
      ["@param name [Symbol, String]", "@return [Boolean]"],
    method "constants" [.optional "inherit" "true"] ["@return [Array<Symbol>]"],
    method "class_eval" [.rest "args"] ["@return [Object]"],
    method "module_eval" [.rest "args"] ["@return [Object]"],
    method "class_exec" [.rest "args"] ["@return [Object]"],
    method "===" [.required "other"] ["@param other [Object]", "@return [Boolean]"],
    method "freeze" [] ["@return [self]"]]

/-- The `Class` class. -/
def classStub : Stub :=
  .namespaceStub .classNamespace "Class" (some "Module") [
    method "new" [.rest "args"] ["@return [self]"],
    method "allocate" [] ["@return [self]"],
    method "superclass" [] ["@return [Class, nil]"]]

/-- The `Comparable` module. -/
def comparableStub : Stub :=
  .namespaceStub .moduleNamespace "Comparable" none [
    method "<" [.required "other"] ["@return [Boolean]"],
    method "<=" [.required "other"] ["@return [Boolean]"],
    method ">" [.required "other"] ["@return [Boolean]"],
    method ">=" [.required "other"] ["@return [Boolean]"],
    method "between?" [.required "min", .required "max"] ["@return [Boolean]"],
    method "clamp" [.required "min", .optional "max" "nil"] ["@return [self]"]]

/-- The `Proc` class. -/
def procStub : Stub :=
  .namespaceStub .classNamespace "Proc" none [
    method "call" [.rest "args"] [],
    method "arity" [] ["@return [Integer]"],
    method "lambda?" [] ["@return [Boolean]"],
    method "to_proc" [] ["@return [self]"],
    method "curry" [.optional "arity" "nil"] ["@return [Proc]"]]

end TagCheck.CoreLibrary
