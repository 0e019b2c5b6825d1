import TagCheck.CoreLibrary.Objects
import TagCheck.CoreLibrary.Values
import TagCheck.CoreLibrary.Texts
import TagCheck.CoreLibrary.Collections
import TagCheck.CoreLibrary.Services
import TagCheck.Outline.Survey

namespace TagCheck.CoreLibrary

/-!
# The core library

The namespaces and methods that every program can use.  They are declared by stubs, which are
surveyed like any source, and their pins come before all others.
-/

/-- The name under which the core library's pins are located. -/
def filename : String :=
  "<core>"

/-- The line of the first stub, below the library's own description. -/
def firstLine : Nat := 6

/-- All stubs, in their order. -/
def stubs : List Stub :=
  [basicObjectStub, kernelStub, objectStub, moduleStub, classStub, comparableStub, enumerableStub,
    nilClassStub, trueClassStub, falseClassStub, booleanStub, numericStub, integerStub, floatStub,
    stringStub, symbolStub, arrayStub, hashStub, rangeStub, setStub, enumeratorStub, regexpStub,
    matchDataStub, procStub, exceptionStub] ++
  exceptionClassStubs ++ [timeStub, mathStub, benchmarkStub]

/-- The pins of the core library; its sources have no root namespace of their own. -/
def pins : List Pin :=
  (Survey.ofProgram ⟨filename, 0⟩ (Stub.Layout.program firstLine stubs)).pins.reverse

end TagCheck.CoreLibrary
