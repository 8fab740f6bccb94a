/-
Module: DocStore.Http.Target
Purpose: the path and query that are sent for the address of a resource.
Main exports:
  Http.Target, Http.Target.ofUrl, Http.Target.withPairs, Http.Target.render
-/
import DocStore.Http.Escape

namespace DocStore.Http

/-- The path and the query of an address, as they are sent. -/
structure Target where
  segments : List String
  query : Option String := none
deriving DecidableEq, Repr

/-- Whether a character is a control or a space. -/
def isControlOrSpace (c : Char) : Bool :=
  c.toNat ≤ 0x20

/-- An address without what does not belong to it: controls and spaces at its end,
and tabs and line ends anywhere. -/
def cleanUrl (url : List Char) : List Char :=
  ((url.reverse.dropWhile isControlOrSpace).reverse).filter fun c =>
    !(c = '\t' || c = '\n' || c = '\r')

/-- Whether a character separates segments of a path. -/
def isSlash (c : Char) : Bool :=
  c = '/' || c = '\\'

/-- What follows the name of the server in an address. -/
def afterServer (url : List Char) : List Char :=
  match Text.splitOnce? "://".toList url with
  | some (_, rest) => rest.dropWhile fun c => !(isSlash c || c = '?' || c = '#')
  | none => url

/-- Whether a character stands for itself in a path. -/
def isPathPlain (c : Char) : Bool :=
  0x20 < c.toNat && c.toNat < 0x7f &&
    !(['"', '#', '<', '>', '?', '\x60', '\x7b', '\x7d'].contains c)

/-- Whether a character stands for itself in the query of an address. -/
def isQueryPlain (c : Char) : Bool :=
  0x20 < c.toNat && c.toNat < 0x7f && !(['"', '#', '<', '>', '\''].contains c)

/-- The pieces of a path between its separators. -/
def splitSegments (path : List Char) : List (List Char) :=
  Text.splitAll ['/'] (path.map fun c => if isSlash c then '/' else c)

/-- Whether a segment means the place where it stands. -/
def isHere (segment : List Char) : Bool :=
  ["." , "%2e"].contains (Text.lowerAscii (String.ofList segment))

/-- Whether a segment means the place above. -/
def isAbove (segment : List Char) : Bool :=
  ["..", ".%2e", "%2e.", "%2e%2e"].contains (Text.lowerAscii (String.ofList segment))

/-- The segments of a path with its steps taken; those before are given with the
last one first. -/
def resolveSegments (before : List String) : List (List Char) → List String
  | [] => before.reverse
  | segment :: rest =>
      if isAbove segment then
        if rest.isEmpty then ("" :: before.tail).reverse else resolveSegments before.tail rest
      else if isHere segment then
        if rest.isEmpty then ("" :: before).reverse else resolveSegments before rest
      else
        resolveSegments (String.ofList (percentEncode isPathPlain segment) :: before) rest

namespace Target

/-- The target of an address.  A fragment is not sent. -/
def ofUrl (url : String) : Target :=
  let sent := (afterServer (cleanUrl url.toList)).takeWhile (· != '#')
  let path := sent.takeWhile (· != '?')
  let segments := resolveSegments [] (splitSegments (path.drop 1))
  match sent.drop path.length with
  | [] => { segments }
  | _ :: query => { segments, query := some (String.ofList (percentEncode isQueryPlain query)) }

/-- A pair as a form field with its name. -/
def pairText (pair : String × String) : String :=
  formEncode pair.1 ++ "=" ++ formEncode pair.2

/-- Append pairs to the query. -/
def withPairs (t : Target) (pairs : List (String × String)) : Target :=
  if pairs.isEmpty then t
  else
    let added := Text.join "&" (pairs.map pairText)
    match t.query with
    | none => { t with query := some added }
    | some query =>
        { t with query := some (if query.isEmpty then added else query ++ "&" ++ added) }

/-- The text of a target. -/
def render (t : Target) : String :=
  "/" ++ Text.join "/" t.segments ++
    (match t.query with
      | none => ""
      | some query => "?" ++ query)

end Target

end DocStore.Http
