/-!
# Media types

**Input.**
The value of a header that tells what a body is: two tokens with a slash between them, and
parameters, each behind a semicolon.  The value of a parameter is a token, or stands between
quotation marks.

**Result.**
`mediaParameters?` gives the parameters in their order.  A value that is not well formed to its
end has none.
-/

namespace BatchRun
namespace Http

/-- A parameter: its name, and its value without quotation marks. -/
structure MediaParameter where
  name : List Char
  value : List Char
deriving DecidableEq

/-- Whether a character may stand in a token. -/
def isTokenChar (c : Char) : Bool :=
  c.isAlphanum
    || ['!', '#', '$', '%', '&', '\'', '*', '+', '-', '.', '^', '_', '`', '|', '~'].contains c

/-- Whether a character may stand between quotation marks. -/
def isQuotable (c : Char) : Bool := 31 < c.toNat && c.toNat != 127

/-- What follows the end of a parameter; there is nothing at the end of the text. -/
def behindParameter? : List Char → Option (List Char)
  | [] => some []
  | ';' :: rest => some rest
  | _ => none

/-- A value behind its first quotation mark, and the rest.  It has at least one character. -/
def quotedValue? : List Char → Option (List Char × List Char)
  | [] => none
  | first :: rest =>
    let isInside (c : Char) : Bool := c != '"' && isQuotable c
    match isQuotable first, rest.dropWhile isInside with
    | true, '"' :: behind =>
      (behindParameter? (behind.dropWhile (· == ' '))).map fun behind =>
        (first :: rest.takeWhile isInside, behind)
    | _, _ => none

/-- A value, and the rest.  Only at the end of the text it may be empty. -/
def mediaValue? : List Char → Option (List Char × List Char)
  | '"' :: rest => quotedValue? rest
  | text =>
    let value := text.takeWhile isTokenChar
    let behind := text.dropWhile isTokenChar
    if value.isEmpty && !behind.isEmpty then none
    else (behindParameter? behind).map fun behind => (value, behind)

/-- Parameters behind the first semicolon.  The fuel exceeds the number of characters. -/
def parameterList? : (fuel : Nat) → List Char → Option (List MediaParameter)
  | 0, _ => none
  | fuel + 1, text =>
    let text := text.dropWhile (· == ' ')
    let name := text.takeWhile isTokenChar
    match text.dropWhile isTokenChar with
    | [] => if name.isEmpty then some [] else none
    | '=' :: rest =>
      if name.isEmpty then none
      else
        match mediaValue? rest with
        | none => none
        | some (value, behind) =>
          (parameterList? fuel behind).map fun others => ⟨name, value⟩ :: others
    | _ => none

/-- Parameters of a media type. -/
def mediaParameters? (text : List Char) : Option (List MediaParameter) :=
  match text.takeWhile isTokenChar, text.dropWhile isTokenChar with
  | _ :: _, '/' :: rest =>
    match rest.takeWhile isTokenChar, rest.dropWhile isTokenChar with
    | _, [] => some []
    | _ :: _, ';' :: behind => parameterList? (behind.length + 1) behind
    | _, _ => none
  | _, _ => none

end Http
end BatchRun
