import ReviewContext.Change.ChangedFile
import ReviewContext.GitHub.Content
import ReviewContext.GitHub.Query
import ReviewContext.Json.Reader
import ReviewContext.Text.Shown
import ReviewContext.Web.Exchange

/-! # GitHub

A client of the interface that GitHub offers to programs. It loads the files of a pull request page by
page, and it is a host: it fetches contents and searches code. Every answer is JSON; an answer with a
status of failure becomes an error that quotes the URL as it was asked for.
-/

namespace ReviewContext.GitHub

open Web (Request Response Server Url statusText)

structure Client where
  /-- Where the interface is, without slashes at the end. -/
  apiUrl : String
  token? : Option String

namespace Client

def ofUrl (apiUrl : String) (token? : Option String) : Client :=
  ⟨String.ofList (apiUrl.toList.reverse.dropWhile (· == '/')).reverse, token?⟩

def shown (client : Client) : String :=
  "GitHubClient \x7b api_url: " ++ Text.shown client.apiUrl ++ ", token: " ++
    Text.shownSecret client.token? ++ " \x7d"

/-- Whether a character may stand in a header. -/
def isHeaderChar (c : Char) : Bool :=
  c = '\t' || (32 ≤ c.toNat && c.toNat ≠ 127)

def headers (client : Client) : List (String × String) :=
  [("accept", "application/vnd.github+json"), ("x-github-api-version", "2022-11-28"),
    ("user-agent", "reviewctx/0.1.0")] ++
    match client.token? with
    | some token => [("authorization", "Bearer " ++ token)]
    | none => []

/-- The request for a URL with these form fields, unless the URL or the token cannot be sent. -/
def request? (client : Client) (url : String) (fields : List (String × String)) :
    Option Request := do
  let target ← Url.parse? url.toList
  if ((client.token?.getD "").toList.all isHeaderChar) then
    return ⟨target.withFields fields, client.headers⟩
  else none

/-- The error that a status of failure stands for. GitHub forbids requests both to strangers and to
those who ask too often; a header tells them apart. -/
def statusError (url : String) (response : Response) : AccessError :=
  let body := String.ofList (Utf8.decodeLenient response.body)
  let exhausted := response.header? "x-ratelimit-remaining" == some "0"
  if response.status = 404 then .notFound url
  else if response.status = 429 || (response.status = 403 && exhausted) then .rateLimited body
  else if response.status = 401 || response.status = 403 then
    .unauthorized ("HTTP " ++ statusText response.status ++ " for " ++ url)
  else .api ("HTTP " ++ statusText response.status ++ " for " ++ url ++ ": " ++ body)

/-- Reads an answer. -/
def readResponse {α : Type} (decode : Json → Option α) (url : String) (response : Response) :
    Except AccessError α :=
  if !response.isSuccess then .error (statusError url response)
  else
    match Json.ofBytes? response.body >>= decode with
    | some value => .ok value
    | none =>
      .error (.api ("invalid response from " ++ url ++ ": error decoding response body"))

/-- Asks for a URL and reads the answer. -/
def get {α : Type} (client : Client) (decode : Json → Option α) (url : String)
    (fields : List (String × String)) (server : Server) : Except AccessError α × Server :=
  match client.request? url fields with
  | none => (.error (.api "builder error"), server)
  | some request =>
    match server.send request with
    | (none, server) =>
      (.error (.api ("error sending request for url (" ++ request.url.text ++ ")")), server)
    | (some response, server) => (readResponse decode url response, server)

/-! ## Pull requests -/

/-- The head revision in the record of a pull request. -/
def headSha? (value : Json) : Option String := do
  match ← value.fields? ["head"] with
  | [head] =>
    match ← Field.required? (Json.fields? ["sha"]) head with
    | [sha] => Field.required? Json.string? sha
    | _ => none
  | _ => none

/-- A file in the list of a pull request; a status that is not known counts as modified. -/
def pullFile? (value : Json) : Option ChangedFile := do
  match ← value.fields? ["filename", "status", "patch"] with
  | [filename, status, patch] =>
    return {
      filename := ← Field.required? Json.string? filename
      status := (FileStatus.read? (← Field.required? Json.string? status)).getD .modified
      patch := ← Json.optional? Json.string? patch }
  | _ => none

def pullUrl (client : Client) (owner repo : String) (number : Nat) : String :=
  client.apiUrl ++ "/repos/" ++ owner ++ "/" ++ repo ++ "/pulls/" ++ toString number

def pullRequestHead (client : Client) (owner repo : String) (number : Nat) (server : Server) :
    Except AccessError String × Server :=
  client.get headSha? (client.pullUrl owner repo number) [] server

/-- How many entries a page may have. -/
def pageSize : Nat := 100

/-- After how many pages GitHub lists no more files. -/
def pageLimit : Nat := 30

/-- The files on the pages from `page` on, at most `left` pages. A page that is not full is the last. -/
def pagesFrom (client : Client) (url : String) (page : Nat) :
    (left : Nat) → Server → Except AccessError (List ChangedFile) × Server
  | 0, server => (.ok [], server)
  | left + 1, server =>
    match client.get (Json.list? pullFile?) url
        [("per_page", toString pageSize), ("page", toString page)] server with
    | (.error e, server) => (.error e, server)
    | (.ok files, server) =>
      if files.length < pageSize then (.ok files, server)
      else
        match pagesFrom client url (page + 1) left server with
        | (.error e, server) => (.error e, server)
        | (.ok more, server) => (.ok (files ++ more), server)

def pullRequestFiles (client : Client) (owner repo : String) (number : Nat) (server : Server) :
    Except AccessError (List ChangedFile) × Server :=
  pagesFrom client (client.pullUrl owner repo number ++ "/files") 1 pageLimit server

/-! ## Contents and code -/

def contentUrl (client : Client) (ref : RepositoryRef) (path : String) : String :=
  client.apiUrl ++ "/repos/" ++ ref.owner ++ "/" ++ ref.repo ++ "/contents/" ++
    String.ofList (path.toList.dropWhile (· == '/'))

def content (client : Client) (ref : RepositoryRef) (path : String) (server : Server) :
    Except AccessError String × Server :=
  let (body, server) := client.get Content.ofJson? (client.contentUrl ref path)
    [("ref", ref.headRevision)] server
  (body >>= Content.decode path, server)

/-- The paths in the answer of a search. -/
def searchPaths? (value : Json) : Option (List String) := do
  match ← value.fields? ["items"] with
  | [items] =>
    Field.withDefault? (Json.list? fun item => do
      match ← item.fields? ["path"] with
      | [path] => Field.required? Json.string? path
      | _ => none) [] items
  | _ => none

def search (client : Client) (ref : RepositoryRef) (query : Query) (limit : Nat) (server : Server) :
    Except AccessError (List String) × Server :=
  let (paths, server) := client.get searchPaths? (client.apiUrl ++ "/search/code")
    [("q", searchText ref query), ("per_page", toString (max 1 (min limit pageSize)))] server
  (paths.map (·.take limit), server)

/-- A reply comes after a moment for every request it took. -/
def reply {α : Type} (call : Server → Except AccessError α × Server) (server : Server) :
    Reply α × Server :=
  let (result, after) := call server
  (⟨after.requests.length - server.requests.length, result⟩, after)

def host (client : Client) : Host Server where
  fetch ref path := reply (client.content ref path)
  search ref query limit := reply (client.search ref query limit)

end Client

end ReviewContext.GitHub
