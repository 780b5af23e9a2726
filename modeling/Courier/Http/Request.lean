import Courier.Bytes

/-!
Courier.Http.Request — the head of an HTTP request.

A head is read from the front of a byte string: empty lines, the request line, header fields, an
empty line. Reading is strict: one space between the parts of the request line, no space around
a field's name, no continued lines. Each part is read by a function that returns the bytes after
it; running out of bytes and finding a wrong one are told apart.
-/

namespace Courier.Http

/-- What is wrong with a head. -/
inductive HeadError where
  | lineEnd
  | token
  | version
  | fieldName
  | fieldValue
  | tooManyFields
  deriving DecidableEq, Repr, Inhabited

/-- The wording of an error. -/
def HeadError.message : HeadError → String
  | .lineEnd => "invalid new line"
  | .token => "invalid token"
  | .version => "invalid HTTP version"
  | .fieldName => "invalid header name"
  | .fieldValue => "invalid header value"
  | .tooManyFields => "too many headers"

/-- Why no head could be read: it goes on beyond the bytes there are, or it is wrong. -/
inductive Stop where
  | unfinished
  | malformed (error : HeadError)
  deriving DecidableEq, Repr, Inhabited

/-- A header field, its value without the white space around it. -/
structure Field where
  name : String
  value : Bytes
  deriving DecidableEq, Repr, Inhabited

/-- The head of a request, and how many bytes it took. -/
structure Request where
  method : String
  target : String
  /-- the digit after `HTTP/1.` -/
  minor : Nat
  fields : List Field
  size : Nat
  deriving DecidableEq, Repr, Inhabited

/-! ## 1. Kinds of bytes -/

/-- A letter, a digit or one of the marks that a name may contain. -/
def isToken (b : UInt8) : Bool :=
  (65 ≤ b && b ≤ 90) || (97 ≤ b && b ≤ 122) || (48 ≤ b && b ≤ 57) ||
    (Bytes.ofString "!#$%&'*+-.^_`|~").contains b

/-- A byte of a target: visible ASCII, or part of another character. -/
def isTarget (b : UInt8) : Bool :=
  (0x21 ≤ b && b ≤ 0x7e) || 0x80 ≤ b

/-- A byte of a value: a tab, a space, visible ASCII, or part of another character. -/
def isValue (b : UInt8) : Bool :=
  b == 9 || (0x20 ≤ b && b ≤ 0x7e) || 0x80 ≤ b

/-- A space or a tab. -/
def isPadding (b : UInt8) : Bool :=
  b == 32 || b == 9

/-! ## 2. Parts -/

/-- Reads a line end, with or without a carriage return. -/
def readLineEnd (wrong : HeadError) : Bytes → Except Stop Bytes
  | [] => .error .unfinished
  | 13 :: [] => .error .unfinished
  | 13 :: 10 :: rest => .ok rest
  | 13 :: _ => .error (.malformed wrong)
  | 10 :: rest => .ok rest
  | _ => .error (.malformed wrong)

/-- Skips empty lines. -/
def skipEmptyLines : Bytes → Except Stop Bytes
  | [] => .error .unfinished
  | 13 :: [] => .error .unfinished
  | 13 :: 10 :: rest => skipEmptyLines rest
  | 13 :: _ => .error (.malformed .lineEnd)
  | 10 :: rest => skipEmptyLines rest
  | bs => .ok bs

/-- Reads one or more bytes of a kind, followed by a space. -/
def readWord (kind : UInt8 → Bool) (bs : Bytes) : Except Stop (Bytes × Bytes) :=
  match bs.dropWhile kind with
  | [] => .error .unfinished
  | b :: rest =>
      let front := bs.takeWhile kind
      if b == 32 && !front.isEmpty then .ok (front, rest) else .error (.malformed .token)

/-- Reads a word that is text. -/
def readText (kind : UInt8 → Bool) (bs : Bytes) : Except Stop (String × Bytes) := do
  let (front, rest) ← readWord kind bs
  match Bytes.toString? front with
  | none => .error (.malformed .token)
  | some text => .ok (text, rest)

/-- What comes before the last digit of a version. -/
def versionStart : Bytes := Bytes.ofString "HTTP/1."

/-- Reads a version and returns its last digit. -/
def readVersion (bs : Bytes) : Except Stop (Nat × Bytes) :=
  let front := bs.take 8
  if front.length < 8 then
    if (front.zip versionStart).all fun p => p.1 == p.2 then .error .unfinished
    else .error (.malformed .version)
  else if front = versionStart ++ [48] then .ok (0, bs.drop 8)
  else if front = versionStart ++ [49] then .ok (1, bs.drop 8)
  else .error (.malformed .version)

/-- Reads a header field. -/
def readField (bs : Bytes) : Except Stop (Field × Bytes) :=
  let name := bs.takeWhile isToken
  match bs.dropWhile isToken with
  | [] => .error (if name.isEmpty then .malformed .fieldName else .unfinished)
  | b :: rest =>
      if name.isEmpty || b != 58 then .error (.malformed .fieldName)
      else
        let rest := rest.dropWhile isPadding
        let value := rest.takeWhile isValue
        (readLineEnd .fieldValue (rest.dropWhile isValue)).map fun rest =>
          ({ name := (Bytes.toString? name).getD "",
             value := (value.reverse.dropWhile isPadding).reverse }, rest)

/-- Reads header fields up to and including the empty line, at most `room` of them. -/
def readFields : (room : Nat) → Bytes → Except Stop (List Field × Bytes)
  | room, bs =>
      match bs with
      | [] => .error .unfinished
      | b :: _ =>
          if b == 13 || b == 10 then (readLineEnd .lineEnd bs).map fun rest => ([], rest)
          else
            match readField bs, room with
            | .error stop, _ => .error stop
            | .ok _, 0 => .error (.malformed .tooManyFields)
            | .ok (f, rest), room + 1 => (readFields room rest).map fun r => (f :: r.1, r.2)

/-! ## 3. The whole head -/

/-- Reads the head of a request with at most `maxFields` header fields. -/
def Request.read (maxFields : Nat) (bs : Bytes) : Except Stop Request := do
  let rest ← skipEmptyLines bs
  let (method, rest) ← readText isToken rest
  let (target, rest) ← readText isTarget rest
  let (minor, rest) ← readVersion rest
  let rest ← readLineEnd .lineEnd rest
  let (fields, rest) ← readFields maxFields rest
  return { method, target, minor, fields, size := bs.length - rest.length }

/-- The first field of a name, upper and lower case not being told apart. -/
def Request.field? (name : String) (r : Request) : Option Field :=
  r.fields.find? fun f => f.name.toList.map Char.toLower == name.toList.map Char.toLower

end Courier.Http
