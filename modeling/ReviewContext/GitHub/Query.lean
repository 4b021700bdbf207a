import ReviewContext.Host.Basic

/-! # Search queries of GitHub

A query is a row of words with a blank between them, the last of which names the repository. A term that
holds blanks stands between quotes, without quotes of its own.
-/

namespace ReviewContext.GitHub

def quoteTerm (term : String) : String :=
  if term.toList.any Text.isBlank then
    "\"" ++ String.ofList (term.toList.filter (· != '"')) ++ "\""
  else term

def scope (ref : RepositoryRef) : String :=
  "repo:" ++ ref.slug

def searchText (ref : RepositoryRef) : Query → String
  | .text terms => String.intercalate " " (terms.map quoteTerm ++ [scope ref])
  | .filename name => "filename:" ++ name ++ " " ++ scope ref

end ReviewContext.GitHub
