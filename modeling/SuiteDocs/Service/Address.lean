import SuiteDocs.Number.Whole
import SuiteDocs.Service.Host
import SuiteDocs.Text.Utf8

/-!
Addresses of requests.

An address may name a scheme and a host, or only a path that is seen from the service. The path is
cleared of `.` and `..`, and bytes of its characters may be escaped, even twice.
-/

set_option autoImplicit false

namespace SuiteDocs.Service

open SuiteDocs.Text

/-- An address: its scheme, its host with the port, and its path. -/
structure Address where
  scheme : Text
  place : Text
  path : Text
  deriving DecidableEq, Repr

namespace Address

/-- Why a text is no address. -/
inductive Error where
  | tooLong
  | control (c : Symbol) (position : Nat)
  | host (error : Host.Error)
  | port (text : Text)
  /-- A path without a host starts with two slashes. -/
  | doubleSlash
  /-- A path without a host starts with a colon. -/
  | colon
  | encoding (error : Utf8.EncodeError)
  deriving DecidableEq, Repr

def Error.message : Error → Text
  | .tooLong => "URL too long"
  | .control c position =>
    "Invalid non-printable ASCII character in URL, " ++ quoted [c] ++ " at position " ++
      Text.ofNat position ++ "."
  | .host error => error.message
  | .port text => "Invalid port: " ++ quoted text
  | .doubleSlash => "Relative URLs cannot have a path starting with '//'"
  | .colon => "Relative URLs cannot have a path starting with ':'"
  | .encoding error => error.message

def maxLength : Nat := 65536

/-- Whether a character is a control character of ASCII. -/
def isControl (c : Symbol) : Bool :=
  c.code < 0x20 || c.code == 0x7F

/-! ## Parts -/

/-- The parts of an address as they are written. The tail holds the query and the fragment. -/
structure Parts where
  scheme : Text
  user : Text
  host : Text
  port : Text
  path : Text
  tail : Text

/-- Whether a character may stand in a scheme. -/
def isSchemeChar (c : Symbol) : Bool :=
  c.isAlphanum || c == '+' || c == '.' || c == '-'

/-- The scheme before a colon, which may be empty, and what follows the colon. -/
def takeScheme (text : Text) : Text × Text :=
  let scheme := text.takeWhile isSchemeChar
  match text.drop scheme.length with
  | .char ':' :: rest => if scheme.head?.all Symbol.isAlpha then (scheme, rest) else ([], text)
  | _ => ([], text)

/-- What stands between two slashes and the path, and the rest. -/
def takeAuthority : Text → Text × Text
  | .char '/' :: .char '/' :: rest =>
    rest.span fun c => c != .char '/' && c != .char '?' && c != .char '#'
  | rest => ([], rest)

/-- The host at the start of a text: an address in brackets, or all up to a colon. -/
def takeHost (text : Text) : Text × Text :=
  match text with
  | .char '[' :: inner =>
    if inner.contains ']' then text.splitAt (text.length - (afterLast ']' text).length)
    else text.span (· != .char ':')
  | _ => text.span (· != .char ':')

def dropColon : Text → Text
  | .char ':' :: rest => rest
  | rest => rest

def Parts.ofText (text : Text) : Parts :=
  let (scheme, rest) := takeScheme text
  let (authority, rest) := takeAuthority rest
  let (path, tail) := rest.span fun c => c != .char '?' && c != .char '#'
  let place := afterLast '@' authority
  let (host, port) := takeHost place
  { scheme
    user := authority.take (authority.length - place.length - 1)
    host
    port := dropColon port
    path
    tail }

/-- Whether only a path is given. -/
def Parts.isBare (parts : Parts) : Bool :=
  parts.scheme.isEmpty && parts.user.isEmpty && parts.host.isEmpty && parts.port.isEmpty

/-- Whether scheme and host are given. -/
def Parts.isAbsolute (parts : Parts) : Bool :=
  !parts.scheme.isEmpty && !parts.host.isEmpty

/-- The ports that need not be given, by scheme. -/
def commonPorts : List (Text × Int) :=
  [("ftp", 21), ("http", 80), ("https", 443), ("ws", 80), ("wss", 443)]

/-- The number of the port, if it has to be given. -/
def Parts.portNumber? (parts : Parts) : Option Int :=
  match Whole.read 10 parts.port with
  | .ok number => if commonPorts.contains (parts.scheme, number) then none else some number
  | .error _ => none

/-- The host with the port behind it. -/
def Parts.place (parts : Parts) : Text :=
  match parts.portNumber? with
  | some number => parts.host ++ ":" ++ Text.ofInt number
  | none => parts.host

/-- The first half of a pair in the path, or behind it. -/
def Parts.half? (parts : Parts) : Option Nat :=
  ((parts.path ++ parts.tail).find? Symbol.isHalf).map Symbol.code

def Parts.check (parts : Parts) : Except Error Unit := do
  (Host.check parts.host).mapError .host
  if !parts.port.isEmpty && !(Whole.read 10 parts.port).isOk then throw (.port parts.port)
  if parts.isBare && parts.path.take 2 == "//" then throw .doubleSlash
  if parts.isBare && parts.path.head? == some ':' then throw .colon
  if let some half := parts.half? then throw (.encoding ⟨half, 0, 1⟩)

/-! ## Paths -/

/-- The segments of a path without those that only lead about. -/
def clearSegments (segments : List Text) : List Text :=
  segments.foldl
    (fun (cleared : List Text) (segment : Text) =>
      if segment == "." then cleared
      else if segment == ".." then
        if cleared == [[]] then cleared else cleared.dropLast
      else cleared ++ [segment])
    []

/-- A path without `.` and `..`. -/
def clear (path : Text) : Text :=
  List.intercalate "/" (clearSegments (splitOn '/' path))

/-- The path of an address as the service sees it. -/
def Parts.seenPath (parts : Parts) : Text :=
  let path := if parts.isBare then parts.path else clear parts.path
  let path := if parts.isAbsolute then path else .char '/' :: path.dropWhile (· == .char '/')
  let cleared := clear path
  if cleared.isEmpty then "/" else cleared

def hexDigit? (c : Symbol) : Option Nat :=
  if c.isDigit then some (c.code - '0'.toNat)
  else if 'a' ≤ c && c ≤ 'f' then some (c.code - 'a'.toNat + 10)
  else if 'A' ≤ c && c ≤ 'F' then some (c.code - 'A'.toNat + 10)
  else none

/-- The bytes of a text in which bytes may be escaped. -/
def unescapedBytes : Text → List UInt8
  | .char '%' :: high :: low :: rest =>
    match hexDigit? high, hexDigit? low with
    | some high, some low => UInt8.ofNat (high * 16 + low) :: unescapedBytes rest
    | _, _ => '%'.toNat.toUInt8 :: unescapedBytes (high :: low :: rest)
  | c :: rest => Utf8.bytesOf c ++ unescapedBytes rest
  | [] => []

/-- The text that a text with escapes stands for. If its bytes spell none, a mark stands in its
place. -/
def unescape (text : Text) : Text :=
  match Utf8.decode (unescapedBytes text) with
  | .ok text => text
  | .error _ => "�"

def defaultScheme : Text := "http"

def defaultHost : Text := "testserver"

/-- The port behind the host of an address, if there is a colon. -/
def port (address : Address) : Except Whole.Error (Option Int) :=
  match address.place.dropWhile (· != .char ':') with
  | [] => .ok none
  | _ :: digits => (Whole.read 10 digits).map some

def ofText (text : Text) : Except Error Address := do
  if maxLength < text.length then throw .tooLong
  if let some c := text.find? isControl then throw (.control c (text.takeWhile (· != c)).length)
  let parts := Parts.ofText text
  parts.check
  let path := unescape (unescape parts.seenPath)
  if parts.isAbsolute then
    return { scheme := parts.scheme.map Symbol.toLower, place := parts.place, path }
  else return { scheme := defaultScheme, place := defaultHost, path }

end Address

end SuiteDocs.Service
