import ReviewContext.Proofs.GitHub.Pages
import ReviewContext.Proofs.Web.Paths

/-! # Where contents are asked for

The path of a file is put into the URL as it stands, and the URL is read afterwards. So the file that a server is
asked for has that path exactly if nothing in the path has a meaning in a URL; the other paths are cut, turned or
resolved to those of other files.
-/

namespace ReviewContext

/-- A server reads the request as one for a path, with these fields and no others. -/
def Web.Request.AsksFor (request : Web.Request) (path : List Char) (fields : List (String × String)) : Prop :=
  Web.percentDecode request.url.path = Utf8.encode path ∧
    Web.formFields (request.url.query?.getD []) =
      fields.map fun (name, value) => (Utf8.encode name.toList, Utf8.encode value.toList)

instance (request : Web.Request) (path : List Char) (fields : List (String × String)) :
    Decidable (request.AsksFor path fields) :=
  inferInstanceAs (Decidable (_ ∧ _))

namespace GitHub.Client

open Web (Request Server Url)

/-- A path below the root of a repository in which nothing has a meaning in a URL. -/
def Addressable (path : String) : Prop :=
  path.toList.head? ≠ some '/' ∧ Url.Verbatim path.toList

/-- Where the contents of a repository are, below the root of the interface. -/
def contentsRoot (root : List Char) (ref : RepositoryRef) : List Char :=
  root ++ ("/repos/".toList ++ (ref.owner.toList ++ '/' :: (ref.repo.toList ++ "/contents".toList)))

/-- The client can send requests to an interface below a root, and nothing in the names of the repository has a
meaning in a URL. -/
structure Reaches (client : Client) (ref : RepositoryRef) (origin root : List Char) : Prop where
  known : Url.IsOrigin origin
  url : client.apiUrl.toList = origin ++ root
  rooted : root.head?.all (· == '/')
  named : Url.Verbatim (contentsRoot root ref)
  sendable : (client.token?.getD "").toList.all isHeaderChar

variable {client : Client} {ref : RepositoryRef} {origin root : List Char}

private theorem content_notes (client : Client) (ref : RepositoryRef) (path : String) (server : Server) :
    (client.content ref path server).2 =
      server.noting (client.request? (client.contentUrl ref path) [("ref", ref.headRevision)]).toList := by
  rw [← get_notes client Content.ofJson?, content]

private theorem contentUrl_of_reaches (reaches : client.Reaches ref origin root) (path : String) :
    (client.contentUrl ref path).toList =
      origin ++ (contentsRoot root ref ++ '/' :: path.toList.dropWhile (· == '/')) := by
  have slash : "/".toList = ['/'] := by decide
  have last : "/contents/".toList = "/contents".toList ++ ['/'] := by decide
  rw [contentUrl, contentsRoot]
  simp only [String.toList_append, String.toList_ofList, reaches.url, slash, last, List.append_assoc,
    List.cons_append, List.nil_append]

private theorem exists_contentsRoot (reaches : client.Reaches ref origin root) :
    ∃ front, contentsRoot root ref = '/' :: front ∧ Url.Verbatim front := by
  have starts : ∃ front, contentsRoot root ref = '/' :: front := by
    cases root with
    | nil => exact ⟨_, rfl⟩
    | cons c root =>
      obtain rfl : c = '/' := by simpa using reaches.rooted
      exact ⟨_, rfl⟩
  obtain ⟨front, whole⟩ := starts
  have named := reaches.named
  rw [whole, ← List.nil_append ('/' :: front), Url.verbatim_append_slash (by decide)] at named
  exact ⟨front, whole, named⟩

private theorem dropWhile_slash_iff {path : List Char} : path.dropWhile (· == '/') = path ↔ path.head? ≠ some '/' := by
  rw [List.dropWhile_eq_self_iff]
  cases path <;> simp

/-- Slashes in front of a path are lost, so a server that reads the whole path was not given any. -/
theorem read_below_iff {front : List Char} (verbatim : Url.Verbatim front) (path : List Char) :
    Web.percentDecode (Url.pathOf (Url.pathText ('/' :: (front ++ '/' :: path.dropWhile (· == '/'))))) =
        Utf8.encode ('/' :: (front ++ '/' :: path)) ↔
      path.head? ≠ some '/' ∧ Url.Verbatim path := by
  constructor
  · intro same
    have whole : path.dropWhile (· == '/') = path := by
      have shorter : (path.dropWhile (· == '/')).Sublist path := List.dropWhile_sublist _
      have fewer := (((shorter.cons_cons '/').append_left front).cons_cons '/').flatMap String.utf8EncodeChar
      have most := Url.length_read_le (front ++ '/' :: path.dropWhile (· == '/'))
      rw [same] at most
      have texts := Utf8.encode_injective (fewer.eq_of_length_le most)
      simpa using texts
    rw [whole, Url.read_iff, Url.verbatim_append_slash verbatim] at same
    exact ⟨dropWhile_slash_iff.mp whole, same⟩
  · rintro ⟨relative, plain⟩
    rw [dropWhile_slash_iff.mpr relative, Url.read_iff, Url.verbatim_append_slash verbatim]
    exact plain

private theorem exists_request (reaches : client.Reaches ref origin root) (path : String) :
    ∃ request, client.request? (client.contentUrl ref path) [("ref", ref.headRevision)] = some request ∧
      request.url.origin = origin ∧
      (request.AsksFor (contentsRoot root ref ++ '/' :: path.toList) [("ref", ref.headRevision)] ↔
        Addressable path) := by
  obtain ⟨front, starts, verbatim⟩ := exists_contentsRoot reaches
  obtain ⟨url, parsed, sameOrigin, samePath, noQuery⟩ :=
    Url.parse?_of_origin reaches.known (front ++ '/' :: path.toList.dropWhile (· == '/'))
  refine ⟨⟨url.withFields [("ref", ref.headRevision)], client.headers⟩, ?_, sameOrigin, ?_⟩
  · rw [request?, contentUrl_of_reaches reaches, starts, List.cons_append, parsed, Option.bind_eq_bind,
      Option.bind_some, if_pos reaches.sendable]
    rfl
  · have reads := read_below_iff verbatim path.toList
    rw [← samePath] at reads
    rw [starts]
    refine ⟨fun asks => reads.mp asks.1, fun plain => ⟨reads.mpr plain, ?_⟩⟩
    apply Url.formFields_withFields
    apply noQuery
    rw [dropWhile_slash_iff.mpr plain.1, Url.verbatim_append_slash verbatim]
    exact plain.2

/-- Every content is asked for once, at the origin of the interface. The request is one for its path exactly if
nothing in the path has a meaning in a URL, and such paths are told apart. -/
theorem content_addresses_iff (reaches : client.Reaches ref origin root) :
    ∃ request : String → Request,
      (∀ path server, (client.content ref path server).2 = server.noting [request path] ∧
        (request path).url.origin = origin ∧
        ((request path).AsksFor (contentsRoot root ref ++ '/' :: path.toList) [("ref", ref.headRevision)] ↔
          Addressable path)) ∧
      ∀ path other, Addressable path → Addressable other → (request path).url.path = (request other).url.path →
        path = other := by
  choose request asks origins reads using exists_request reaches
  refine ⟨request, fun path server => ⟨?_, origins path, reads path⟩, fun path other first second same => ?_⟩
  · rw [content_notes, asks, Option.toList_some]
  · have decoded := ((reads path).mpr first).1
    rw [same, ((reads other).mpr second).1] at decoded
    have texts := List.append_cancel_left (Utf8.encode_injective decoded)
    exact (String.toList_injective (List.cons.inj texts).2).symm

/-! ## The contents of a shop -/

def shopRef : RepositoryRef :=
  ⟨"acme", "shop", "abc123"⟩

private theorem anonymous_reaches_shopRef : anonymous.Reaches shopRef "https://api.github.com".toList [] where
  known := ⟨"https://", by decide, "api.github.com".toList, by decide, by decide, by decide⟩
  url := by decide
  rooted := rfl
  named := by decide
  sendable := by decide

/-- Blanks, percent signs and characters beyond ASCII address a file as others do. -/
theorem content_addresses_iff_of_shop :
    let path := "docs/Größe 100%.md"
    ∃ request : Request, (anonymous.content shopRef path ⟨[], none, []⟩).2.requests = [request] ∧
      request.AsksFor ("/repos/acme/shop/contents/" ++ path).toList [("ref", "abc123")] := by
  intro path
  obtain ⟨request, each, -⟩ := content_addresses_iff anonymous_reaches_shopRef
  obtain ⟨sent, -, reads⟩ := each path ⟨[], none, []⟩
  have plain : Addressable path := by
    constructor <;> decide
  have place : contentsRoot [] shopRef ++ '/' :: path.toList = ("/repos/acme/shop/contents/" ++ path).toList := by
    decide
  rw [place] at reads
  exact ⟨request path, by rw [sent]; rfl, reads.mpr plain⟩

/-- A number sign ends the path, so another file is asked for, which has a request of its own. -/
theorem number_sign_cuts_contents :
    let sent (path : String) := (anonymous.content shopRef path ⟨[], none, []⟩).2.requests
    let address (request : Request) := (request.url.path, request.url.query?)
    (sent "a#b.ts").map address = [("/repos/acme/shop/contents/a".toList, some "ref=abc123".toList)] ∧
      (sent "a").map address = (sent "a#b.ts").map address ∧
      ∀ request ∈ sent "a#b.ts",
        ¬ request.AsksFor "/repos/acme/shop/contents/a#b.ts".toList [("ref", "abc123")] := by
  decide

end GitHub.Client

end ReviewContext
