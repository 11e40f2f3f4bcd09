import CppDemo.Foundation.ByteStream
import CppDemo.Foundation.GuardedTable
import Mathlib.Algebra.Order.Group.Int
import Mathlib.Algebra.Group.Nat.Defs
import Mathlib.Data.List.DropRight

/-!
# The HTTP request parser

The parser is a machine of the `fsmlite` library. It reads one byte at a time, takes the first row
of its table whose source is the current state and whose guard holds, and is stuck when there is no
such row. Its actions append bytes to the text that `buffer_` points to, the method, the uri or
`temp_`, and move the pointer. Four of its guards make a copy of the request and assign to the copy,
which has no effect on the request itself.

The request class, its header list and the string utilities are not part of the repository. What the
parser uses of them is a `HttpLibrary`, and `HttpLibrary.Documented` is what it relies on. Adding a
header appends it to the list, and setting the body stores it with its content type. The library
also says what `atoi` returns for a number that is too large for an `int`, which is left open.

Source: `misc/fsmlite_test.cpp`, lines 16–188 and 208–219.

## Main definitions

* `HttpLibrary` : the functions that the parser uses.
* `HttpRequestParser` : its members, with its guards and actions.
* `transitionTable`, `step` : its table and its step.

## Main results

* `step_start` and the lemmas after it : the step in each state.
-/

namespace CppDemo.Misc.HttpRequest

/-! ### Characters -/

def space : UInt8 := 32
def carriageReturn : UInt8 := 13
def newLine : UInt8 := 10
def slash : UInt8 := 47
def dot : UInt8 := 46
def colon : UInt8 := 58

/-- The functions of `ctype.h` in the C locale. -/
def isalpha (c : UInt8) : Bool := 65 ≤ c && c ≤ 90 || 97 ≤ c && c ≤ 122

def isdigit (c : UInt8) : Bool := 48 ≤ c && c ≤ 57

def isnumber (c : UInt8) : Bool := isdigit c

def ispunct (c : UInt8) : Bool :=
  33 ≤ c && c ≤ 47 || 58 ≤ c && c ≤ 64 || 91 ≤ c && c ≤ 96 || 123 ≤ c && c ≤ 126

def isspace (c : UInt8) : Bool := c = 32 || 9 ≤ c && c ≤ 13

def tolower (c : UInt8) : UInt8 := if 65 ≤ c && c ≤ 90 then c + 32 else c

/-- The value of a string of digits. -/
def decimal (digits : Bytes) : Int :=
  digits.foldl (fun (n : Int) c ↦ 10 * n + (c.toNat - 48 : Nat)) 0

/-- The number that `atoi` reads: blanks, an optional sign and digits; what follows is ignored. -/
def number (s : Bytes) : Int :=
  match s.dropWhile isspace with
  | 45 :: s => -decimal (s.takeWhile isdigit)
  | 43 :: s => decimal (s.takeWhile isdigit)
  | s => decimal (s.takeWhile isdigit)

/-- A number that an `int` can hold. -/
def FitsInt (n : Int) : Prop := -2 ^ 31 ≤ n ∧ n < 2 ^ 31

instance (n : Int) : Decidable (FitsInt n) := inferInstanceAs (Decidable (_ ∧ _))

/-! ### Requests -/

structure Header where
  name : Bytes
  value : Bytes
  deriving DecidableEq, Repr

structure Request where
  method : Bytes
  uri : Bytes
  httpVersionMajor : Int
  httpVersionMinor : Int
  headerList : List Header
  /-- What `setBody` was last called with. -/
  body : Option (Bytes × Bytes)
  deriving DecidableEq, Repr

/-- What the parser uses of the libraries. -/
structure HttpLibrary where
  trim : Bytes → Bytes
  toLowerCase : Bytes → Bytes
  /-- `absl::StrSplit(text, absl::MaxSplits(":", 1))`. -/
  strSplit : Bytes → List Bytes
  /-- What `atoi` returns for a text whose number does not fit in `int`. -/
  atoiOutOfRange : Bytes → Int32
  /-- `Request::POST`. -/
  post : Bytes
  contentLength : List Header → Bytes
  get : List Header → Bytes → Option Bytes
  /-- The default-constructed request. -/
  request : Request

/-- The text `t` is `s` without the white space around it. -/
structure IsTrim (s t : Bytes) : Prop where
  parts : ∃ before after, s = before ++ t ++ after ∧ (∀ c ∈ before, isspace c = true) ∧
    ∀ c ∈ after, isspace c = true
  head : ∀ c, t.head? = some c → isspace c = false
  last : ∀ c, t.getLast? = some c → isspace c = false

/-- A text is split at its first colon, if it has one. -/
structure SplitsAtColon (split : Bytes → List Bytes) : Prop where
  whole : ∀ s, colon ∉ s → split s = [s]
  parts : ∀ before after, colon ∉ before → split (before ++ colon :: after) = [before, after]

/-- What the parser relies on. -/
structure HttpLibrary.Documented (lib : HttpLibrary) : Prop where
  trim : ∀ s, IsTrim s (lib.trim s)
  toLowerCase : ∀ s, lib.toLowerCase s = s.map tolower
  strSplit : SplitsAtColon lib.strSplit
  method : lib.request.method = []
  uri : lib.request.uri = []
  headerList : lib.request.headerList = []

/-- `atoi`. -/
def HttpLibrary.atoi (lib : HttpLibrary) (s : Bytes) : Int32 :=
  if FitsInt (number s) then Int32.ofInt (number s) else lib.atoiOutOfRange s

/-- A library that behaves as documented. Its `atoi` reads a `long`, the nearest one if there is no
such number, and drops the upper half of it. -/
def plainLibrary : HttpLibrary where
  trim s := (s.dropWhile isspace).rdropWhile isspace
  toLowerCase s := s.map tolower
  strSplit s :=
    if colon ∈ s then [s.takeWhile (· ≠ colon), (s.dropWhile (· ≠ colon)).tail] else [s]
  atoiOutOfRange s := Int32.ofInt (max (-2 ^ 63) (min (number s) (2 ^ 63 - 1)))
  post := ascii "POST"
  contentLength headers :=
    ((headers.find? fun h ↦ h.name.map tolower = ascii "content-length").map Header.value).getD []
  get headers name := (headers.find? fun h ↦ h.name = name).map Header.value
  request :=
    { method := [], uri := [], httpVersionMajor := 1, httpVersionMinor := 1, headerList := [],
      body := none }

private theorem isTrim_rdropWhile (s : Bytes) :
    IsTrim s ((s.dropWhile isspace).rdropWhile isspace) where
  parts := by
    refine ⟨s.takeWhile isspace, (s.dropWhile isspace).rtakeWhile isspace, ?_, fun c hc ↦ ?_,
      fun c hc ↦ ?_⟩
    · rw [List.append_assoc, List.rdropWhile_append_rtakeWhile, List.takeWhile_append_dropWhile]
    · exact List.mem_takeWhile_imp hc
    · exact List.mem_rtakeWhile_imp hc
  head c hc := by
    obtain ⟨after, hs⟩ := List.rdropWhile_prefix isspace (s.dropWhile isspace)
    have hhead : (s.dropWhile isspace).head? = some c := by
      rw [← hs, List.head?_append, hc, Option.some_or]
    have hnot := List.head?_dropWhile_not isspace s
    rwa [hhead] at hnot
  last c hc := by
    obtain ⟨hne, rfl⟩ := List.mem_getLast?_eq_getLast hc
    exact Bool.eq_false_iff.mpr (List.rdropWhile_last_not isspace _ hne)

private theorem splitsAtColon_plainLibrary : SplitsAtColon plainLibrary.strSplit where
  whole s hs := if_neg hs
  parts before after hbefore := by
    have hall : ∀ c ∈ before, decide (c ≠ colon) = true := fun c hc ↦
      decide_eq_true fun h ↦ hbefore (h ▸ hc)
    have hsplit : plainLibrary.strSplit (before ++ colon :: after) =
        [(before ++ colon :: after).takeWhile (· ≠ colon),
          ((before ++ colon :: after).dropWhile (· ≠ colon)).tail] := if_pos (by simp)
    rw [hsplit, List.takeWhile_append_of_pos hall, List.dropWhile_append_of_pos hall,
      List.takeWhile_cons_of_neg (by simp), List.dropWhile_cons_of_neg (by simp), List.append_nil,
      List.tail_cons]

theorem plainLibrary_documented : plainLibrary.Documented where
  trim := isTrim_rdropWhile
  toLowerCase _ := rfl
  strSplit := splitsAtColon_plainLibrary
  method := rfl
  uri := rfl
  headerList := rfl

/-! ### The parser -/

inductive ParseState
  | error
  | start
  | method
  | uri
  | http
  | major
  | minor
  | expectingNewline1
  | headerLineStart
  | headerLine
  | expectingNewline2
  | expectingNewline3
  | expectingBody
  | finish
  deriving DecidableEq, Repr

/-- What `buffer_` points to. -/
inductive BufferRef
  | method
  | uri
  | temp
  deriving DecidableEq, Repr

/-- The members of the parser. -/
structure HttpRequestParser where
  request : Request
  temp : Bytes := []
  buffer : BufferRef := .method
  deriving DecidableEq, Repr

namespace HttpRequestParser

/-- `*buffer_`. -/
def text (self : HttpRequestParser) : Bytes :=
  match self.buffer with
  | .method => self.request.method
  | .uri => self.request.uri
  | .temp => self.temp

/-- Assign to `*buffer_`. -/
def setText (self : HttpRequestParser) (text : Bytes) : HttpRequestParser :=
  match self.buffer with
  | .method => { self with request := { self.request with method := text } }
  | .uri => { self with request := { self.request with uri := text } }
  | .temp => { self with temp := text }

/-! ### Actions -/

def noAction (self : HttpRequestParser) (_ : UInt8) : HttpRequestParser := self

def errorAction (self : HttpRequestParser) (_ : UInt8) : HttpRequestParser := self

def appendToBuffer (self : HttpRequestParser) (c : UInt8) : HttpRequestParser :=
  self.setText (self.text ++ [c])

def onMethodFinish (self : HttpRequestParser) (_ : UInt8) : HttpRequestParser :=
  { self with buffer := .uri }

/-- Clear `temp_` and let `buffer_` point to it. -/
def clearTemp (self : HttpRequestParser) : HttpRequestParser :=
  { self with temp := [], buffer := .temp }

def onUriFinish (self : HttpRequestParser) (_ : UInt8) : HttpRequestParser := self.clearTemp

def onHttpFinish (self : HttpRequestParser) (_ : UInt8) : HttpRequestParser := self.clearTemp

def onMajorFinish (self : HttpRequestParser) (_ : UInt8) : HttpRequestParser := self.clearTemp

def onMinorFinish (self : HttpRequestParser) (_ : UInt8) : HttpRequestParser := self.clearTemp

def onHeaderLineStart (self : HttpRequestParser) (_ : UInt8) : HttpRequestParser := self.clearTemp

/-- Add the header that the buffer holds; the buffer is not cleared. -/
def onHeaderLineFinish (lib : HttpLibrary) (self : HttpRequestParser) (_ : UInt8) :
    HttpRequestParser :=
  let parts := lib.strSplit self.text
  let name := lib.trim (parts.getD 0 [])
  if name.length > 0 then
    let value := if parts.length > 1 then parts.getD 1 [] else []
    { self with request :=
      { self.request with headerList := self.request.headerList ++ [⟨name, lib.trim value⟩] } }
  else self

def onBodyStart (self : HttpRequestParser) (_ : UInt8) : HttpRequestParser := self.clearTemp

def onBodyFinish (lib : HttpLibrary) (self : HttpRequestParser) (c : UInt8) : HttpRequestParser :=
  let self := self.setText (self.text ++ [c])
  let contentType :=
    (lib.get self.request.headerList (ascii "Content-Type")).getD (ascii "text/plain")
  let self := { self with request := { self.request with body := some (self.text, contentType) } }
  self.setText []

/-! ### Guards -/

/-- The guard of a row that has none. -/
def always (_ : HttpRequestParser) (_ : UInt8) : Bool := true

def isAlpha (_ : HttpRequestParser) (c : UInt8) : Bool := isalpha c

def isDigit (_ : HttpRequestParser) (c : UInt8) : Bool := isdigit c

def isSpace (_ : HttpRequestParser) (c : UInt8) : Bool := space = c

def isCarryReturn (_ : HttpRequestParser) (c : UInt8) : Bool := carriageReturn = c

def isNewLine (_ : HttpRequestParser) (c : UInt8) : Bool := newLine = c

def isValidMethod (self : HttpRequestParser) (c : UInt8) : Bool :=
  space = c && (ascii "GET" = self.request.method || ascii "POST" = self.request.method)

def isValidUriChar (_ : HttpRequestParser) (c : UInt8) : Bool :=
  isalpha c || isnumber c || ispunct c

def isValidHttp (lib : HttpLibrary) (self : HttpRequestParser) (c : UInt8) : Bool :=
  slash = c && ascii "http" = lib.toLowerCase self.temp

/-- The version number is assigned to a copy of the request. -/
def isValidMajor (_ : HttpRequestParser) (c : UInt8) : Bool := dot = c

/-- The version number is assigned to a copy of the request. -/
def isValidMinor (_ : HttpRequestParser) (c : UInt8) : Bool := carriageReturn = c

/-- The number that the content length of the header list denotes. -/
def contentLength (lib : HttpLibrary) (self : HttpRequestParser) : Int :=
  number (lib.contentLength self.request.headerList)

def bodySize (lib : HttpLibrary) (self : HttpRequestParser) : Int32 :=
  lib.atoi (lib.contentLength self.request.headerList)

def isNeedBody (lib : HttpLibrary) (self : HttpRequestParser) (c : UInt8) : Bool :=
  newLine = c && self.request.method = lib.post && self.bodySize lib > 0

/-- The size of the buffer is compared with the body size as unsigned words. -/
def needMoreBody (lib : HttpLibrary) (self : HttpRequestParser) (_ : UInt8) : Bool :=
  UInt64.ofNat (self.text.length + 1) < (self.bodySize lib).toInt64.toUInt64

end HttpRequestParser

open HttpRequestParser in
/-- The rows of the table, in order. -/
def transitionTable (lib : HttpLibrary) :
    List (GuardedRow ParseState HttpRequestParser UInt8) :=
  [⟨.start, .method, appendToBuffer, isAlpha⟩,
    ⟨.start, .error, errorAction, always⟩,
    ⟨.method, .method, appendToBuffer, isAlpha⟩,
    ⟨.method, .uri, onMethodFinish, isValidMethod⟩,
    ⟨.method, .error, errorAction, always⟩,
    ⟨.uri, .uri, appendToBuffer, isValidUriChar⟩,
    ⟨.uri, .http, onUriFinish, isSpace⟩,
    ⟨.uri, .error, errorAction, always⟩,
    ⟨.http, .http, appendToBuffer, isAlpha⟩,
    ⟨.http, .major, onHttpFinish, isValidHttp lib⟩,
    ⟨.http, .error, errorAction, always⟩,
    ⟨.major, .major, appendToBuffer, isDigit⟩,
    ⟨.major, .minor, onMajorFinish, isValidMajor⟩,
    ⟨.major, .error, errorAction, always⟩,
    ⟨.minor, .minor, appendToBuffer, isDigit⟩,
    ⟨.minor, .expectingNewline1, onMinorFinish, isValidMinor⟩,
    ⟨.minor, .error, errorAction, always⟩,
    ⟨.expectingNewline1, .headerLineStart, onHeaderLineStart, isNewLine⟩,
    ⟨.expectingNewline1, .error, errorAction, always⟩,
    ⟨.headerLineStart, .expectingNewline3, noAction, isCarryReturn⟩,
    ⟨.headerLineStart, .headerLine, appendToBuffer, isAlpha⟩,
    ⟨.headerLineStart, .error, errorAction, always⟩,
    ⟨.headerLine, .expectingNewline2, noAction, isCarryReturn⟩,
    ⟨.headerLine, .error, errorAction, isNewLine⟩,
    ⟨.headerLine, .headerLine, appendToBuffer, always⟩,
    ⟨.expectingNewline2, .headerLineStart, onHeaderLineFinish lib, isNewLine⟩,
    ⟨.expectingNewline2, .error, errorAction, always⟩,
    ⟨.expectingNewline3, .expectingBody, onBodyStart, isNeedBody lib⟩,
    ⟨.expectingNewline3, .finish, noAction, isNewLine⟩,
    ⟨.expectingNewline3, .error, errorAction, always⟩,
    ⟨.expectingBody, .expectingBody, appendToBuffer, needMoreBody lib⟩,
    ⟨.expectingBody, .finish, onBodyFinish lib, always⟩]

/-- The state of the machine: its parse state and its members. -/
abbrev Machine := ParseState × HttpRequestParser

/-- `process_event`. -/
def step (lib : HttpLibrary) : Machine → UInt8 → Option Machine :=
  GuardedTable.fire (transitionTable lib)

/-- A machine that has just been constructed. -/
def init (lib : HttpLibrary) : Machine := (.start, { request := lib.request })

/-- Feed bytes to the machine. -/
def feed (lib : HttpLibrary) : Machine → Bytes → Option Machine := Transition.run (step lib)

/-! ### The step in each state -/

section Step

open HttpRequestParser

variable (lib : HttpLibrary) (self : HttpRequestParser) (c : UInt8)

theorem step_start : step lib (.start, self) c =
    if isalpha c then some (.method, self.appendToBuffer c) else some (.error, self) := by
  simp [step, transitionTable, GuardedTable.fire_cons, isAlpha, always, errorAction]

theorem step_method : step lib (.method, self) c =
    if isalpha c then some (.method, self.appendToBuffer c)
    else if self.isValidMethod c then some (.uri, { self with buffer := .uri })
    else some (.error, self) := by
  simp [step, transitionTable, GuardedTable.fire_cons, isAlpha, always, errorAction,
    onMethodFinish]

theorem step_uri : step lib (.uri, self) c =
    if self.isValidUriChar c then some (.uri, self.appendToBuffer c)
    else if space = c then some (.http, self.clearTemp)
    else some (.error, self) := by
  simp [step, transitionTable, GuardedTable.fire_cons, isSpace, always, errorAction, onUriFinish]

theorem step_http : step lib (.http, self) c =
    if isalpha c then some (.http, self.appendToBuffer c)
    else if self.isValidHttp lib c then some (.major, self.clearTemp)
    else some (.error, self) := by
  simp [step, transitionTable, GuardedTable.fire_cons, isAlpha, always, errorAction, onHttpFinish]

theorem step_major : step lib (.major, self) c =
    if isdigit c then some (.major, self.appendToBuffer c)
    else if dot = c then some (.minor, self.clearTemp)
    else some (.error, self) := by
  simp [step, transitionTable, GuardedTable.fire_cons, isDigit, isValidMajor, always, errorAction,
    onMajorFinish]

theorem step_minor : step lib (.minor, self) c =
    if isdigit c then some (.minor, self.appendToBuffer c)
    else if carriageReturn = c then some (.expectingNewline1, self.clearTemp)
    else some (.error, self) := by
  simp [step, transitionTable, GuardedTable.fire_cons, isDigit, isValidMinor, always, errorAction,
    onMinorFinish]

theorem step_expectingNewline1 : step lib (.expectingNewline1, self) c =
    if newLine = c then some (.headerLineStart, self.clearTemp) else some (.error, self) := by
  simp [step, transitionTable, GuardedTable.fire_cons, isNewLine, always, errorAction,
    onHeaderLineStart]

theorem step_headerLineStart : step lib (.headerLineStart, self) c =
    if carriageReturn = c then some (.expectingNewline3, self)
    else if isalpha c then some (.headerLine, self.appendToBuffer c)
    else some (.error, self) := by
  simp [step, transitionTable, GuardedTable.fire_cons, isCarryReturn, isAlpha, always, errorAction,
    noAction]

theorem step_headerLine : step lib (.headerLine, self) c =
    if carriageReturn = c then some (.expectingNewline2, self)
    else if newLine = c then some (.error, self)
    else some (.headerLine, self.appendToBuffer c) := by
  simp [step, transitionTable, GuardedTable.fire_cons, isCarryReturn, isNewLine, always,
    errorAction, noAction]

theorem step_expectingNewline2 : step lib (.expectingNewline2, self) c =
    if newLine = c then some (.headerLineStart, self.onHeaderLineFinish lib c)
    else some (.error, self) := by
  simp [step, transitionTable, GuardedTable.fire_cons, isNewLine, always, errorAction]

theorem step_expectingNewline3 : step lib (.expectingNewline3, self) c =
    if self.isNeedBody lib c then some (.expectingBody, self.clearTemp)
    else if newLine = c then some (.finish, self)
    else some (.error, self) := by
  simp [step, transitionTable, GuardedTable.fire_cons, isNewLine, always, errorAction, noAction,
    onBodyStart]

theorem step_expectingBody : step lib (.expectingBody, self) c =
    if self.needMoreBody lib c then some (.expectingBody, self.appendToBuffer c)
    else some (.finish, self.onBodyFinish lib c) := by
  simp [step, transitionTable, GuardedTable.fire_cons, always]

@[simp] theorem step_finish : step lib (.finish, self) c = none := by
  simp [step, transitionTable, GuardedTable.fire_cons]

@[simp] theorem step_error : step lib (.error, self) c = none := by
  simp [step, transitionTable, GuardedTable.fire_cons]

end Step

end CppDemo.Misc.HttpRequest
