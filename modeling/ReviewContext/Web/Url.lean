import ReviewContext.Text.Basic
import ReviewContext.Web.Percent

/-! # URLs

A URL of the web is read from a text as browsers do it: blanks at its ends and newlines anywhere do not
count, a backslash is a slash, the segments `.` and `..` are resolved, and characters that may not stand
in a part are percent-encoded. What is encoded already stays as it is.
-/

namespace ReviewContext.Web

structure Url where
  /-- Scheme and host. -/
  origin : List Char
  path : List Char
  query? : Option (List Char)
  fragment? : Option (List Char)
  deriving DecidableEq

namespace Url

def isEdge (c : Char) : Bool :=
  c.toNat ≤ 32

def isLineBreakOrTab (c : Char) : Bool :=
  c = '\t' || c = '\n' || c = '\r'

/-- The characters of a text that count. -/
def clean (text : List Char) : List Char :=
  (((text.dropWhile isEdge).reverse.dropWhile isEdge).reverse).filter (!isLineBreakOrTab ·)

def isSlash (c : Char) : Bool :=
  c = '/' || c = '\\'

def endsHost (c : Char) : Bool :=
  isSlash c || c = '?' || c = '#'

def endsPath (c : Char) : Bool :=
  c = '?' || c = '#'

/-- A segment in which encoded dots are dots, to tell whether it is one or two of them. -/
def dots : List Char → List Char
  | '%' :: '2' :: 'e' :: rest => '.' :: dots rest
  | '%' :: '2' :: 'E' :: rest => '.' :: dots rest
  | c :: rest => c :: dots rest
  | [] => []

/-- Adds a segment to those resolved, the last of which comes first. At the end of a path the dots
leave an empty segment. -/
def addSegment (resolved : List (List Char)) (isLast : Bool) (segment : List Char) :
    List (List Char) :=
  let stay := if isLast then [[]] else []
  if dots segment = ['.', '.'] then stay ++ resolved.tail
  else if dots segment = ['.'] then stay ++ resolved
  else segment :: resolved

def resolve (resolved : List (List Char)) : List (List Char) → List (List Char)
  | [] => resolved.reverse
  | [segment] => (addSegment resolved true segment).reverse
  | segment :: rest => resolve (addSegment resolved false segment) rest

/-- The path of a URL, as it stands between host and query. -/
def pathOf (text : List Char) : List Char :=
  let segments := Text.splitBy isSlash (if text.isEmpty then text else text.drop 1)
  (resolve [] segments).flatMap fun segment => '/' :: percentEncode inPathSet segment

/-- The part of a text behind a mark, encoded, if the text starts with the mark. -/
def partAfter? (mark : Char) (inSet : Char → Bool) : List Char → Option (List Char)
  | [] => none
  | c :: rest => if c = mark then some (percentEncode inSet rest) else none

/-- Reads a URL; it has to name a host of the web. -/
def parse? (text : List Char) : Option Url := do
  let text := clean text
  let scheme ← ["http://", "https://"].find? fun scheme => scheme.toList.isPrefixOf text
  let rest := text.drop scheme.length
  let host := rest.takeWhile (!endsHost ·)
  if host.isEmpty then none
  let rest := rest.dropWhile (!endsHost ·)
  let behind := rest.dropWhile (!endsPath ·)
  return {
    origin := scheme.toList ++ host
    path := pathOf (rest.takeWhile (!endsPath ·))
    query? := partAfter? '?' inQuerySet (behind.takeWhile (· != '#'))
    fragment? := partAfter? '#' inFragmentSet (behind.dropWhile (· != '#')) }

/-- A form field as it stands in a query. -/
def field : String × String → List Char
  | (name, value) => formEncode name.toList ++ '=' :: formEncode value.toList

/-- Adds form fields to the query; an empty query is none. -/
def withFields (url : Url) (fields : List (String × String)) : Url :=
  let parts := (url.query?.getD [] :: fields.map field).filter (!·.isEmpty)
  { url with query? := if parts.isEmpty then none else some ((parts.intersperse ['&']).flatten) }

/-- A part with its mark, or nothing. -/
def marked (mark : Char) : Option (List Char) → List Char
  | some part => mark :: part
  | none => []

def text (url : Url) : String :=
  String.ofList (url.origin ++ url.path ++ marked '?' url.query? ++ marked '#' url.fragment?)

end Url

end ReviewContext.Web
