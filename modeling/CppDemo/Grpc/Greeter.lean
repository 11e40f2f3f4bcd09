import Mathlib.Init

/-!
# Messages of the greeter service

The messages of `grpcdemo/proto/greeter.proto` and `grpcdemo/proto/common.proto`, with the proto3
default of each field.
-/

namespace CppDemo.Grpc

/-- How a name is to be quoted. -/
structure Config where
  doubleQuote : Bool := false
  deriving DecidableEq, Repr

/-- A request of any of the four greeter calls. -/
structure HelloRequest where
  name : String := ""
  config : Option Config := none
  deriving DecidableEq, Repr

/-- The answer of a greeter call, or one message of a stream of answers. -/
structure HelloResponse where
  message : String := ""
  deriving DecidableEq, Repr

end CppDemo.Grpc
