import BatchRun.Http.Host

/-!
# Addresses

**Input.**
The text of an address.

**Results.**
`Url.parse?` reads an address that stands for itself, and `Url.text` writes it normalized: the
scheme and the host in lower case, the usual socket left out, steps inside the path done, and what
may not be written as it is encoded.  Names of users do not belong to the normalized address.
-/

namespace BatchRun
namespace Http

open Storage

/-- An address. -/
structure Url where
  scheme : String
  /-- Host, and the number of its socket if it is not the usual one. -/
  host : Option (String × Option Nat)
  /-- Path with its slashes. -/
  path : String
  query : Option String
  fragment : Option String
deriving DecidableEq

/-- Usual sockets of the well-known schemes. -/
def usualSockets : List (String × Option Nat) :=
  [("http", some 80), ("https", some 443), ("ws", some 80), ("wss", some 443), ("ftp", some 21),
    ("file", none)]

/-- Whether a scheme is a well-known one. -/
def isSpecial (scheme : String) : Bool := (usualSockets.lookup scheme).isSome

/-- Text without control characters and blanks at its ends, and without line breaks and
tabulators. -/
def cleaned (text : List Char) : List Char :=
  let outer (c : Char) : Bool := c.toNat ≤ 32
  (((text.dropWhile outer).reverse.dropWhile outer).reverse).filter fun c =>
    !(c == '\t' || c == '\n' || c == '\r')

/-- Scheme in front of the first colon, and what is behind it. -/
def scheme? (text : List Char) : Option (String × List Char) :=
  let isPart (c : Char) : Bool := c.isAlphanum || c == '+' || c == '-' || c == '.'
  match text.takeWhile isPart, text.dropWhile isPart with
  | first :: more, ':' :: rest =>
    if first.isAlpha then some (String.ofList ((first :: more).map Char.toLower), rest) else none
  | _, _ => none

/-- Text in front of a mark, and behind it if it is there. -/
def cutAt (mark : Char) (text : List Char) : List Char × Option (List Char) :=
  (text.takeWhile (· != mark), (text.dropWhile (· != mark)).tail?)

/-- Text behind the last `@`, in front of which is the name of a user. -/
def afterUser (text : List Char) : List Char :=
  (text.reverse.takeWhile (· != '@')).reverse

/-- Host and the text behind it, from the first colon on that is not in brackets. -/
def cutHost (inside : Bool) : List Char → List Char × List Char
  | [] => ([], [])
  | c :: rest =>
    if c = ':' ∧ !inside then ([], c :: rest)
    else
      let (host, rest) := cutHost (if c = '[' then true else if c = ']' then false else inside) rest
      (c :: host, rest)

/-- Number of the socket behind the host, if it is not the usual one. -/
def socket? (usual : Option Nat) : List Char → Option (Option Nat)
  | [] => some none
  | [':'] => some none
  | _ :: digits =>
    match numberIn? 10 digits with
    | none => none
    | some socket =>
      if 65535 < socket then none else some (if some socket = usual then none else some socket)

/-- One step of a path: `.`, `..`, or a name. -/
inductive PathStep where
  | stay
  | up
  | name (text : List Char)

/-- Step that a part of a path stands for. -/
def PathStep.ofText (text : List Char) : PathStep :=
  let dots : List (List Char) := [['.'], ['%', '2', 'e']]
  let lower := text.map Char.toLower
  if dots.contains lower then .stay
  else if (dots.flatMap fun a => dots.map (a ++ ·)).contains lower then .up
  else .name (percentEncode isPathByte text)

/-- Names of a path after its steps; a step at the end leaves an empty name. -/
def walk (before : List (List Char)) : List (List Char) → List (List Char)
  | [] => before
  | part :: parts =>
    let ended (names : List (List Char)) : List (List Char) :=
      if parts.isEmpty then names ++ [[]] else names
    walk
      (match PathStep.ofText part with
        | .stay => ended before
        | .up => ended before.dropLast
        | .name text => before ++ [text])
      parts

/-- Path with its steps done. -/
def walkedPath (special : Bool) (text : List Char) : List Char :=
  let text := if special then text.map fun c => if c = '\\' then '/' else c else text
  let text := if text.head? = some '/' then text.tail else text
  '/' :: List.intercalate ['/'] (walk [] (splitAt '/' text))

namespace Url

/-- Reads what is behind the scheme and the slashes. -/
def withHost? (scheme : String) (text : List Char) (query fragment : Option String) :
    Option Url := do
  let special := isSpecial scheme
  let isEnd (c : Char) : Bool := c == '/' || (special && c == '\\')
  let (host, socket) := cutHost false (afterUser (text.takeWhile (!isEnd ·)))
  let path := text.dropWhile (!isEnd ·)
  let socket ← socket? ((usualSockets.lookup scheme).join) socket
  let host ←
    if host.isEmpty then (if scheme = "file" then some [] else none)
    else if special then hostText? host
    else opaqueHostText? host
  pure
    { scheme
      host := if host.isEmpty then none else some (String.ofList host, socket)
      path :=
        if path.isEmpty && !special then "" else String.ofList (walkedPath special path)
      query
      fragment }

/-- Reads the text of an address. -/
def parse? (text : String) : Option Url := do
  let (scheme, rest) ← scheme? (cleaned text.toList)
  let special := isSpecial scheme
  let (rest, fragment) := cutAt '#' rest
  let (rest, query) := cutAt '?' rest
  let fragment := fragment.map fun text => String.ofList (percentEncode isFragmentByte text)
  let query := query.map fun text => String.ofList (percentEncode (isQueryByte special) text)
  let isSlash (c : Char) : Bool := c == '/' || (special && c == '\\')
  let slashes := (rest.takeWhile isSlash).length
  if scheme = "file" then
    if 2 ≤ slashes then withHost? scheme (rest.drop 2) query fragment
    else withHost? scheme ('/' :: rest.drop slashes) query fragment
  else if special then withHost? scheme (rest.drop slashes) query fragment
  else if 2 ≤ slashes then withHost? scheme (rest.drop 2) query fragment
  else
    let path :=
      if slashes = 1 then walkedPath false rest else percentEncode isVisibleByte rest
    some { scheme, host := none, path := String.ofList path, query, fragment }

/-- Text of the address. -/
def text (url : Url) : String :=
  let host : String :=
    match url.host with
    | none => if url.scheme = "file" then "//" else ""
    | some (host, none) => "//" ++ host
    | some (host, some socket) => "//" ++ host ++ ":" ++ String.ofList (decimalText socket)
  let behind (mark : String) (part : Option String) : String :=
    match part with
    | none => ""
    | some text => mark ++ text
  url.scheme ++ ":" ++ host ++ url.path ++ behind "?" url.query ++ behind "#" url.fragment

/-- Whether requests can be sent to the address. -/
def isReachable (url : Url) : Bool :=
  (url.scheme == "http" || url.scheme == "https")
    && match url.host with
      | none => false
      | some (host, _) => !host.toList.any fun c => ['"', '`', '\x7b', '\x7d'].contains c

end Url

end Http
end BatchRun
