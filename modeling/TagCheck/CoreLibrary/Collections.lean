import TagCheck.CoreLibrary.Stub

namespace TagCheck.CoreLibrary

/-!
# Collections

The classes of collections.  `generic<T>`, `generic<K>` and `generic<V>` stand for the element,
key and value parameters of the receiver.
-/

open Stub

/-- The `Enumerable` module. -/
def enumerableStub : Stub :=
  .namespaceStub .moduleNamespace "Enumerable" none [
    method "map" [] ["@return [Array]"],
    method "collect" [] ["@return [Array]"],
    method "flat_map" [] ["@return [Array]"],
    method "select" [] ["@return [Array<generic<T>>]"],
    method "filter" [] ["@return [Array<generic<T>>]"],
    method "reject" [] ["@return [Array<generic<T>>]"],
    method "find" [] ["@return [generic<T>, nil]"],
    method "detect" [] ["@return [generic<T>, nil]"],
    method "to_a" [] ["@return [Array<generic<T>>]"],
    method "entries" [] ["@return [Array<generic<T>>]"],
    method "sort" [] ["@return [Array<generic<T>>]"],
    method "sort_by" [] ["@return [Array<generic<T>>]"],
    method "min" [] ["@return [generic<T>]"],
    method "max" [] ["@return [generic<T>]"],
    method "min_by" [] ["@return [generic<T>]"],
    method "max_by" [] ["@return [generic<T>]"],
    method "reduce" [.rest "args"] ["@return [Object]"],
    method "inject" [.rest "args"] ["@return [Object]"],
    method "sum" [.optional "init" "0"] ["@return [Numeric]"],
    method "count" [.rest "args"] ["@return [Integer]"],
    method "include?" [.required "obj"] ["@return [Boolean]"],
    method "member?" [.required "obj"] ["@return [Boolean]"],
    method "any?" [.rest "args"] ["@return [Boolean]"],
    method "all?" [.rest "args"] ["@return [Boolean]"],
    method "none?" [.rest "args"] ["@return [Boolean]"],
    method "group_by" [] ["@return [Hash]"],
    method "tally" [] ["@return [Hash]"],
    method "partition" [] ["@return [Array<Array<generic<T>>>]"],
    method "to_h" [] ["@return [Hash]"],
    method "each_with_index" [] ["@return [self]"],
    method "each_with_object" [.required "memo"] ["@return [Object]"],
    method "take" [.required "count"] ["@return [Array<generic<T>>]"],
    method "drop" [.required "count"] ["@return [Array<generic<T>>]"],
    method "uniq" [] ["@return [Array<generic<T>>]"],
    method "zip" [.rest "others"] ["@return [Array]"],
    method "each_slice" [.required "size"] ["@return [Enumerator]"],
    method "first" [.rest "args"] ["@return [generic<T>, nil]"]]

/-- The `Array` class. -/
def arrayStub : Stub :=
  .namespaceStub .classNamespace "Array" none [
    .inclusion "Enumerable",
    method "[]" [.rest "args"] ["@return [generic<T>]"],
    method "[]=" [.required "index", .required "value"]
      ["@param value [generic<T>]", "@return [generic<T>]"],
    method "first" [.rest "args"] ["@return [generic<T>]"],
    method "last" [.rest "args"] ["@return [generic<T>]"],
    method "at" [.required "index"] ["@return [generic<T>]"],
    method "fetch" [.rest "args"] ["@return [generic<T>]"],
    method "slice" [.rest "args"] ["@return [Array<generic<T>>]"],
    method "pop" [] ["@return [generic<T>]"],
    method "shift" [] ["@return [generic<T>]"],
    method "push" [.rest "items"] ["@return [self]"],
    method "append" [.rest "items"] ["@return [self]"],
    method "unshift" [.rest "items"] ["@return [self]"],
    method "prepend" [.rest "items"] ["@return [self]"],
    method "<<" [.required "item"] ["@param item [generic<T>]", "@return [self]"],
    method "+" [.required "other"] ["@return [Array]"],
    method "-" [.required "other"] ["@return [Array<generic<T>>]"],
    method "&" [.required "other"] ["@return [Array<generic<T>>]"],
    method "|" [.required "other"] ["@return [Array]"],
    method "length" [] ["@return [Integer]"],
    method "size" [] ["@return [Integer]"],
    method "empty?" [] ["@return [Boolean]"],
    method "any?" [.rest "args"] ["@return [Boolean]"],
    method "each" [] ["@return [self]"],
    method "each_index" [] ["@return [self]"],
    method "reverse_each" [] ["@return [self]"],
    method "join" [.optional "separator" "nil"] ["@return [String]"],
    method "compact" [] ["@return [Array<generic<T>>]"],
    method "flatten" [.optional "depth" "nil"] ["@return [Array]"],
    method "reverse" [] ["@return [Array<generic<T>>]"],
    method "rotate" [.optional "count" "1"] ["@return [Array<generic<T>>]"],
    method "uniq" [] ["@return [Array<generic<T>>]"],
    method "sort" [] ["@return [Array<generic<T>>]"],
    method "sort!" [] ["@return [self]"],
    method "map!" [] ["@return [self]"],
    method "select!" [] ["@return [self]"],
    method "reject!" [] ["@return [self]"],
    method "uniq!" [] ["@return [self]"],
    method "compact!" [] ["@return [self]"],
    method "concat" [.rest "others"] ["@return [self]"],
    method "clear" [] ["@return [self]"],
    method "replace" [.required "other"] ["@return [self]"],
    method "delete" [.required "item"] ["@return [generic<T>, nil]"],
    method "delete_at" [.required "index"] ["@return [generic<T>, nil]"],
    method "delete_if" [] ["@return [self]"],
    method "include?" [.required "item"] ["@return [Boolean]"],
    method "index" [.rest "args"] ["@return [Integer, nil]"],
    method "sample" [] ["@return [generic<T>]"],
    method "shuffle" [] ["@return [Array<generic<T>>]"],
    method "dup" [] ["@return [Array<generic<T>>]"],
    method "to_a" [] ["@return [Array<generic<T>>]"],
    method "each_slice" [.required "size"] ["@return [Array<Array>]"],
    method "pack" [.required "template"] ["@return [String]"],
    method "transpose" [] ["@return [Array]"],
    method "product" [.rest "others"] ["@return [Array]"],
    method "count" [.rest "args"] ["@return [Integer]"]]

/-- The `Hash` class. -/
def hashStub : Stub :=
  .namespaceStub .classNamespace "Hash" none [
    .inclusion "Enumerable",
    method "[]" [.required "key"] ["@param key [generic<K>]", "@return [generic<V>]"],
    method "[]=" [.required "key", .required "value"]
      ["@param key [generic<K>]", "@param value [generic<V>]", "@return [generic<V>]"],
    method "store" [.required "key", .required "value"]
      ["@param key [generic<K>]", "@param value [generic<V>]", "@return [generic<V>]"],
    method "fetch" [.required "key", .rest "args"]
      ["@param key [generic<K>]", "@return [generic<V>]"],
    method "dig" [.rest "keys"] ["@return [generic<V>, nil]"],
    method "delete" [.required "key"] ["@return [generic<V>, nil]"],
    method "key?" [.required "key"] ["@param key [generic<K>]", "@return [Boolean]"],
    method "has_key?" [.required "key"] ["@param key [generic<K>]", "@return [Boolean]"],
    method "include?" [.required "key"] ["@param key [generic<K>]", "@return [Boolean]"],
    method "value?" [.required "value"] ["@return [Boolean]"],
    method "key" [.required "value"] ["@return [generic<K>, nil]"],
    method "keys" [] ["@return [Array<generic<K>>]"],
    method "values" [] ["@return [Array<generic<V>>]"],
    method "values_at" [.rest "keys"] ["@return [Array<generic<V>>]"],
    method "each" [] ["@return [self]"],
    method "each_pair" [] ["@return [self]"],
    method "each_key" [] ["@return [self]"],
    method "each_value" [] ["@return [self]"],
    method "merge" [.rest "others"] ["@param other [Hash]", "@return [Hash]"],
    method "merge!" [.rest "others"] ["@return [self]"],
    method "update" [.rest "others"] ["@return [self]"],
    method "select" [] ["@return [Hash]"],
    method "filter" [] ["@return [Hash]"],
    method "reject" [] ["@return [Hash]"],
    method "slice" [.rest "keys"] ["@return [Hash]"],
    method "except" [.rest "keys"] ["@return [Hash]"],
    method "transform_values" [] ["@return [Hash]"],
    method "transform_keys" [] ["@return [Hash]"],
    method "invert" [] ["@return [Hash]"],
    method "compact" [] ["@return [Hash]"],
    method "to_h" [] ["@return [Hash]"],
    method "to_a" [] ["@return [Array<Array>]"],
    method "length" [] ["@return [Integer]"],
    method "size" [] ["@return [Integer]"],
    method "empty?" [] ["@return [Boolean]"],
    method "clear" [] ["@return [self]"],
    method "dup" [] ["@return [self]"],
    method "default" [] ["@return [generic<V>]"]]

/-- The `Range` class. -/
def rangeStub : Stub :=
  .namespaceStub .classNamespace "Range" none [
    .inclusion "Enumerable",
    method "first" [.rest "args"] ["@return [generic<T>]"],
    method "last" [.rest "args"] ["@return [generic<T>]"],
    method "include?" [.required "value"] ["@return [Boolean]"],
    method "cover?" [.required "value"] ["@return [Boolean]"],
    method "exclude_end?" [] ["@return [Boolean]"],
    method "size" [] ["@return [Integer, nil]"],
    method "each" [] ["@return [self]"],
    method "step" [.optional "amount" "1"] ["@return [Enumerator]"]]

/-- The `Set` class. -/
def setStub : Stub :=
  .namespaceStub .classNamespace "Set" none [
    .inclusion "Enumerable",
    method "add" [.required "item"] ["@return [self]"],
    method "<<" [.required "item"] ["@return [self]"],
    method "delete" [.required "item"] ["@return [self]"],
    method "include?" [.required "item"] ["@return [Boolean]"],
    method "size" [] ["@return [Integer]"],
    method "empty?" [] ["@return [Boolean]"],
    method "each" [] ["@return [self]"]]

/-- The `Enumerator` class. -/
def enumeratorStub : Stub :=
  .namespaceStub .classNamespace "Enumerator" none [
    .inclusion "Enumerable",
    method "peek" [] ["@return [generic<T>]"],
    method "with_index" [.optional "offset" "0"] ["@return [Enumerator]"],
    method "with_object" [.required "memo"] ["@return [Enumerator]"],
    method "size" [] ["@return [Integer, nil]"],
    method "rewind" [] ["@return [self]"]]

end TagCheck.CoreLibrary
