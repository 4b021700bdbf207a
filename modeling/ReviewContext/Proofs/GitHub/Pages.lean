import Mathlib.Data.List.Forall2
import ReviewContext.GitHub.Client
import ReviewContext.Proofs.Json.RoundTrip
import ReviewContext.Proofs.Names.Spellings
import ReviewContext.Proofs.Text.Utf8

/-! # The files of a pull request, page by page

Full pages are put together, and the first page that is not full, or that fails, ends the run. So a server that cuts
a list into pages gives the list back, up to the last page that is asked for, and every page is asked for once.
-/

namespace ReviewContext

/-- A server that was asked these requests more, the last first. -/
def Web.Server.noting (server : Web.Server) (requests : List Web.Request) : Web.Server :=
  { server with requests := requests ++ server.requests }

namespace GitHub

open Web (Request Response Server)

/-- A file as a pull request lists it. -/
structure ListedFile where
  filename : String
  status : String
  patch : Option String

/-- The status is the one that the table has for its word in lower case; a word that is not there counts as modified. -/
def ListedFile.changed (file : ListedFile) : ChangedFile :=
  { filename := file.filename
    status := (FileStatus.spellings.lookup (String.ofList (Text.lower file.status.toList))).getD .modified
    patch := file.patch }

/-- A record that lists a file; other members than these do not matter. -/
def ListedFile.Shown (file : ListedFile) (value : Json) : Prop :=
  ∃ patch, Json.optional? Json.string? patch = some file.patch ∧
    value.fields? ["filename", "status", "patch"] =
      some [some (.string file.filename), some (.string file.status), patch]

/-- The files on a page; the first page has number 1. -/
def pageOf (files : List ListedFile) (page : Nat) : List ListedFile :=
  (files.drop (100 * (page - 1))).take 100

namespace Client

/-- The fields that ask for a page. -/
def pageFields (page : Nat) : List (String × String) :=
  [("per_page", toString pageSize), ("page", toString page)]

/-- What a page is answered with. -/
def pageAnswer (client : Client) (url : String) (server : Server) (page : Nat) :
    Except AccessError (List ChangedFile) :=
  (client.get (Json.list? pullFile?) url (pageFields page) server).1

/-- The requests for `count` pages from `page` on, the last first. -/
def asked (client : Client) (url : String) (page count : Nat) : List Request :=
  (List.range' page count).reverse.flatMap fun page => (client.request? url (pageFields page)).toList

/-- The server answers the request for a page with success and a list of these files. -/
def Delivers (client : Client) (url : String) (server : Server) (page : Nat) (files : List ListedFile) : Prop :=
  ∃ request response values, client.request? url (pageFields page) = some request ∧
    server.response? request = some response ∧ response.isSuccess = true ∧
    Json.ofBytes? response.body = some (.array values) ∧ List.Forall₂ ListedFile.Shown files values

variable {client : Client} {url : String} {server : Server} {page count left : Nat} {files : List ListedFile}

/-! ## Answers -/

private theorem get_noting {α : Type} (client : Client) (decode : Json → Option α) (url : String)
    (fields : List (String × String)) (requests : List Request) (server : Server) :
    (client.get decode url fields (server.noting requests)).1 = (client.get decode url fields server).1 := by
  have same (request : Request) : (server.noting requests).response? request = server.response? request := rfl
  unfold get
  cases client.request? url fields with
  | none => rfl
  | some request =>
    simp only [Server.send, same]
    cases server.response? request <;> rfl

/-- A request that can be written down is noted by the server, whatever it answers. -/
theorem get_notes {α : Type} (client : Client) (decode : Json → Option α) (url : String)
    (fields : List (String × String)) (server : Server) :
    (client.get decode url fields server).2 = server.noting (client.request? url fields).toList := by
  unfold get
  cases client.request? url fields with
  | none => rfl
  | some request =>
    simp only [Server.send]
    cases server.response? request <;> rfl

private theorem pullFile?_of_shown {file : ListedFile} {value : Json} (shown : file.Shown value) :
    pullFile? value = some file.changed := by
  obtain ⟨patch, read, fields⟩ := shown
  simp [pullFile?, fields, read, Field.required?, Json.string?, ListedFile.changed, FileStatus.read?_eq_lookup]

private theorem mapM_pullFile? {values : List Json} (shown : List.Forall₂ ListedFile.Shown files values) :
    values.mapM pullFile? = some (files.map ListedFile.changed) := by
  induction shown with
  | nil => rfl
  | cons first _ ih => simp [List.mapM_cons, pullFile?_of_shown first, ih]

private theorem Delivers.answer (delivers : Delivers client url server page files) :
    pageAnswer client url server page = .ok (files.map ListedFile.changed) := by
  obtain ⟨request, response, values, asks, answers, success, body, shown⟩ := delivers
  have read : Json.ofBytes? response.body >>= Json.list? pullFile? = some (files.map ListedFile.changed) := by
    rw [body]
    exact mapM_pullFile? shown
  simp [pageAnswer, get, asks, Server.send, answers, readResponse, success, read]

/-! ## Runs -/

/-- One page: a failure and a page that is not full end the run. -/
theorem pagesFrom_succ (client : Client) (url : String) (page left : Nat) (server : Server) :
    pagesFrom client url page (left + 1) server =
      let after := server.noting (client.request? url (pageFields page)).toList
      match pageAnswer client url server page with
      | .error e => (.error e, after)
      | .ok files =>
        if files.length < pageSize then (.ok files, after)
        else
          let rest := pagesFrom client url (page + 1) left after
          (rest.1.map (files ++ ·), rest.2) := by
  have reached := get_notes client (Json.list? pullFile?) url (pageFields page) server
  rw [pagesFrom, ← reached, pageAnswer, pageFields]
  rcases client.get (Json.list? pullFile?) url [("per_page", toString pageSize), ("page", toString page)] server with
    ⟨answer, after⟩
  cases answer with
  | error e => rfl
  | ok files =>
    dsimp only
    split
    · rfl
    · rcases pagesFrom client url (page + 1) left after with ⟨more, last⟩
      cases more <;> rfl

private theorem noting_nil (server : Server) : server.noting [] = server := rfl

private theorem noting_noting (server : Server) (first second : List Request) :
    (server.noting first).noting second = server.noting (second ++ first) := by
  simp only [Server.noting, List.append_assoc]

private theorem asked_succ (client : Client) (url : String) (page count : Nat) :
    asked client url page (count + 1) =
      (client.request? url (pageFields (page + count))).toList ++ asked client url page count := by
  simp [asked, List.range'_concat]

private theorem pageAnswer_noting (requests : List Request) :
    pageAnswer client url (server.noting requests) page = pageAnswer client url server page :=
  get_noting client _ url _ requests server

/-- As long as pages are full, the run goes on behind them. -/
theorem pagesFrom_full {full : Nat → List ChangedFile} (fits : count ≤ left)
    (each : ∀ k < count, pageAnswer client url server (page + k) = .ok (full k) ∧ pageSize ≤ (full k).length) :
    pagesFrom client url page left server =
      let rest := pagesFrom client url (page + count) (left - count) (server.noting (asked client url page count))
      (rest.1.map ((List.range count).flatMap full ++ ·), rest.2) := by
  induction count with
  | zero =>
    rcases whole : pagesFrom client url page left server with ⟨result, after⟩
    cases result <;> simp [asked, noting_nil, whole, Except.map]
  | succ count ih =>
    obtain ⟨answer, isFull⟩ := each count (Nat.lt_succ_self count)
    obtain ⟨more, room⟩ : ∃ more, left - count = more + 1 := ⟨left - count - 1, by omega⟩
    have fewer : left - (count + 1) = more := by omega
    rw [ih (by omega) fun k below => each k (by omega), room, pagesFrom_succ, pageAnswer_noting, answer]
    simp only [Nat.not_lt.mpr isFull, ↓reduceIte, noting_noting, ← asked_succ, fewer, List.range_succ,
      List.flatMap_append]
    rcases pagesFrom client url (page + count + 1) more _ with ⟨result, after⟩
    cases result <;> simp [Except.map]

/-! ## A list in pages -/

private theorem length_pageOf (files : List ListedFile) (page : Nat) :
    (pageOf files page).length = min 100 (files.length - 100 * (page - 1)) := by
  simp [pageOf]

private theorem pages_join (files : List ListedFile) (count : Nat) :
    (List.range count).flatMap (fun k => pageOf files (1 + k)) = files.take (100 * count) := by
  induction count with
  | zero => rfl
  | succ count ih =>
    have next : pageOf files (1 + count) = (files.drop (100 * count)).take 100 := by simp [pageOf]
    rw [List.range_succ, List.flatMap_append, ih, List.flatMap_singleton, next, Nat.mul_succ, List.take_add]

private theorem length_asked (sent : ∀ k < count, (client.request? url (pageFields (page + k))).isSome) :
    (asked client url page count).length = count := by
  induction count with
  | zero => rfl
  | succ count ih =>
    obtain ⟨request, asks⟩ := Option.isSome_iff_exists.mp (sent count (Nat.lt_succ_self count))
    rw [asked_succ, List.length_append, ih fun k below => sent k (by omega), asks, Option.toList_some,
      List.length_singleton]
    omega

/-- The pages that are full are put together, and what comes behind them settles the run. -/
theorem pagesFrom_listed (count : Nat) (full : 100 * count ≤ files.length) (fits : count ≤ left)
    (each : ∀ page, 1 ≤ page → page ≤ count → Delivers client url server page (pageOf files page)) :
    pagesFrom client url 1 left server =
      let rest := pagesFrom client url (1 + count) (left - count) (server.noting (asked client url 1 count))
      (rest.1.map ((files.take (100 * count)).map ListedFile.changed ++ ·), rest.2) := by
  have joined : (List.range count).flatMap (fun k => (pageOf files (1 + k)).map ListedFile.changed) =
      (files.take (100 * count)).map ListedFile.changed := by
    rw [← pages_join, List.map_flatMap]
  rw [← joined]
  apply pagesFrom_full fits
  intro k below
  refine ⟨(each (1 + k) (by omega) (by omega)).answer, ?_⟩
  rw [List.length_map, length_pageOf, pageSize]
  omega

private theorem pagesFrom_short (short : files.length < 3000)
    (each : ∀ page, 1 ≤ page → page ≤ files.length / 100 + 1 → Delivers client url server page (pageOf files page)) :
    pagesFrom client url 1 30 server =
      (.ok (files.map ListedFile.changed), server.noting (asked client url 1 (files.length / 100 + 1))) := by
  have whole : files.take (100 * (files.length / 100)) ++ pageOf files (1 + files.length / 100) = files := by
    rw [pageOf, Nat.add_sub_cancel_left, ← List.take_add]
    apply List.take_of_length_le
    omega
  have ends : ((pageOf files (1 + files.length / 100)).map ListedFile.changed).length < pageSize := by
    rw [List.length_map, length_pageOf, pageSize]
    omega
  obtain ⟨left, room⟩ : ∃ left, 30 - files.length / 100 = left + 1 := ⟨29 - files.length / 100, by omega⟩
  rw [pagesFrom_listed (files.length / 100) (by omega) (by omega) fun page first last => each page first (by omega),
    room, pagesFrom_succ, pageAnswer_noting, (each (1 + files.length / 100) (by omega) (by omega)).answer, asked_succ]
  simp only [ends, ↓reduceIte, noting_noting, Except.map, ← List.map_append, whole]

private theorem pagesFrom_long (long : 3000 ≤ files.length)
    (each : ∀ page, 1 ≤ page → page ≤ 30 → Delivers client url server page (pageOf files page)) :
    pagesFrom client url 1 30 server =
      (.ok ((files.take 3000).map ListedFile.changed), server.noting (asked client url 1 30)) := by
  rw [pagesFrom_listed 30 long (Nat.le_refl 30) each]
  simp [pagesFrom, Except.map]

private theorem pagesFrom_failing {error : AccessError} (first : 1 ≤ page) (full : 100 * (page - 1) ≤ files.length)
    (within : page ≤ 30)
    (each : ∀ earlier, 1 ≤ earlier → earlier < page → Delivers client url server earlier (pageOf files earlier))
    (fails : pageAnswer client url server page = .error error) :
    pagesFrom client url 1 30 server = (.error error, server.noting (asked client url 1 page)) := by
  obtain ⟨count, rfl⟩ : ∃ count, page = count + 1 := ⟨page - 1, by omega⟩
  obtain ⟨left, room⟩ : ∃ left, 30 - count = left + 1 := ⟨29 - count, by omega⟩
  rw [Nat.add_comm] at fails
  rw [pagesFrom_listed count full (by omega) fun earlier known below => each earlier known (by omega), room,
    pagesFrom_succ, pageAnswer_noting, fails, asked_succ]
  simp only [noting_noting, Except.map]

/-- A list that is cut into pages of 100 comes back, up to the 3000th file, and every page up to the first that is
not full is asked for once. A page that fails in front of that ends the run with its error, and nothing is listed. -/
theorem pull_request_files_paged (client : Client) (owner repo : String) (number : Nat) (server : Server)
    (files : List ListedFile) :
    let url := client.pullUrl owner repo number ++ "/files"
    let last := min 30 (files.length / 100 + 1)
    ((∀ page, 1 ≤ page → page ≤ last → Delivers client url server page (pageOf files page)) →
        client.pullRequestFiles owner repo number server =
            (.ok ((files.take 3000).map ListedFile.changed), server.noting (asked client url 1 last)) ∧
          (asked client url 1 last).length = last) ∧
      ∀ page error, 1 ≤ page → page ≤ last →
        (∀ earlier, 1 ≤ earlier → earlier < page → Delivers client url server earlier (pageOf files earlier)) →
        pageAnswer client url server page = .error error →
        client.pullRequestFiles owner repo number server =
          (.error error, server.noting (asked client url 1 page)) := by
  intro url last
  refine ⟨fun each => ⟨?_, ?_⟩, fun page error first within earlier fails => ?_⟩
  · by_cases short : files.length < 3000
    · have count : last = files.length / 100 + 1 := by omega
      rw [count] at each ⊢
      rw [List.take_of_length_le (by omega)]
      exact pagesFrom_short short each
    · have count : last = 30 := by omega
      rw [count] at each ⊢
      exact pagesFrom_long (by omega) each
  · apply length_asked
    intro k below
    obtain ⟨request, -, -, asks, -⟩ := each (1 + k) (by omega) (by omega)
    rw [asks]
    rfl
  · exact pagesFrom_failing first (by omega) (by omega) earlier fails

/-! ## A server with two pages -/

private theorem ofBytes?_pretty {value : Json} (plain : value.Plain) :
    Json.ofBytes? (Utf8.encode (Json.pretty value).toList) = some value := by
  rw [Json.ofBytes?, Utf8.decodePartial_encode]
  exact Json.parse?_pretty plain

/-- The record of a file, as a server writes it. -/
def record (file : ListedFile) : Json :=
  .object [("filename", .string file.filename), ("patch", Json.ofOption .string file.patch),
    ("status", .string file.status)]

private theorem shown_record (file : ListedFile) : file.Shown (record file) := by
  rcases file with ⟨filename, status, patch⟩
  cases patch with
  | none => exact ⟨some .null, rfl, rfl⟩
  | some patch => exact ⟨some (.string patch), rfl, rfl⟩

private theorem plain_record (file : ListedFile) : (record file).Plain := by
  refine .object fun member inside => ?_
  simp only [List.mem_cons, List.not_mem_nil, or_false] at inside
  rcases inside with rfl | rfl | rfl
  · exact .string file.filename
  · cases file.patch with
    | none => exact .null
    | some patch => exact .string patch
  · exact .string file.status

/-- A response that lists files. -/
def listing (files : List ListedFile) : Web.Response :=
  ⟨200, [], Utf8.encode (Json.pretty (.array (files.map record))).toList⟩

private theorem delivers_listing {request : Request} (asks : client.request? url (pageFields page) = some request)
    (answers : server.response? request = some (listing files)) : Delivers client url server page files := by
  refine ⟨request, listing files, files.map record, asks, answers, rfl, ofBytes?_pretty (.array ?_), ?_⟩
  · intro value inside
    obtain ⟨file, -, rfl⟩ := List.mem_map.mp inside
    exact plain_record file
  · rw [List.forall₂_map_right_iff]
    exact List.forall₂_same.mpr fun file _ => shown_record file

/-- GitHub, asked without a token. -/
def anonymous : Client :=
  ⟨"https://api.github.com", none⟩

def pullPath : List Char :=
  "/repos/acme/shop/pulls/7/files".toList

def pageQuery (digit : Char) : List Char :=
  "per_page=100&page=".toList ++ [digit]

/-- The request for a page of the files of pull request 7 in `acme/shop`. -/
def pageRequest (digit : Char) : Request :=
  ⟨⟨"https://api.github.com".toList, pullPath, some (pageQuery digit), none⟩, anonymous.headers⟩

/-- A server that has these answers to the requests for the first two pages. -/
def twoPages (first? second? : Option Web.Response) : Server :=
  ⟨[⟨pullPath, some (pageQuery '1'), first?⟩, ⟨pullPath, some (pageQuery '2'), second?⟩], none, []⟩

private theorem asks_first :
    anonymous.request? (anonymous.pullUrl "acme" "shop" 7 ++ "/files") (pageFields 1) = some (pageRequest '1') := by
  rfl

private theorem asks_second :
    anonymous.request? (anonymous.pullUrl "acme" "shop" 7 ++ "/files") (pageFields 2) = some (pageRequest '2') := by
  rfl

private theorem twoPages_first (first? second? : Option Web.Response) :
    (twoPages first? second?).response? (pageRequest '1') = first? := by
  rfl

private theorem twoPages_second (first? second? : Option Web.Response) :
    (twoPages first? second?).response? (pageRequest '2') = second? := by
  rfl

/-- A list that fills its first page, with words for each status, in any case, and one that is unknown: the second page
is asked for, and is empty or is not answered at all. -/
theorem pull_request_files_paged_of_full_page :
    let words := ["added", "Copied", "changed", "DELETED", "Renamed", "mystery"]
    let files : List ListedFile :=
      (List.range 100).map fun n => ⟨toString n, words.getD (n % 6) "", some "@@ -1 +1 @@"⟩
    let complete := anonymous.pullRequestFiles "acme" "shop" 7 (twoPages (some (listing files)) (some (listing [])))
    let broken := anonymous.pullRequestFiles "acme" "shop" 7 (twoPages (some (listing files)) none)
    (files.map fun file => file.changed.status).take 6 = [.added, .added, .modified, .removed, .renamed, .modified] ∧
      complete.1 = .ok (files.map ListedFile.changed) ∧ complete.2.requests = [pageRequest '2', pageRequest '1'] ∧
      broken.1 = .error (.api ("error sending request for url (" ++ (pageRequest '2').url.text ++ ")")) ∧
      broken.2.requests = [pageRequest '2', pageRequest '1'] := by
  intro words files
  have count : files.length = 100 := by rw [List.length_map, List.length_range]
  have statuses : (files.map fun file => file.changed.status).take 6 =
      [.added, .added, .modified, .removed, .renamed, .modified] := by
    decide +kernel
  -- only the number of files matters from here on
  clear_value files
  intro complete broken
  let url := anonymous.pullUrl "acme" "shop" 7 ++ "/files"
  have requests : asked anonymous url 1 2 = [pageRequest '2', pageRequest '1'] := by
    rw [asked_succ, asked_succ, asks_first, asks_second]
    rfl
  have last : min 30 (files.length / 100 + 1) = 2 := by rw [count]; rfl
  have whole : pageOf files 1 = files := by
    rw [pageOf, Nat.sub_self, Nat.mul_zero, List.drop_zero, List.take_of_length_le (Nat.le_of_eq count)]
  have ended : pageOf files 2 = [] := by
    rw [pageOf, List.drop_of_length_le (Nat.le_of_eq count), List.take_nil]
  have first (second? : Option Web.Response) :
      Delivers anonymous url (twoPages (some (listing files)) second?) 1 (pageOf files 1) := by
    rw [whole]
    exact delivers_listing asks_first (twoPages_first _ _)
  have lost : pageAnswer anonymous url (twoPages (some (listing files)) none) 2 =
      .error (.api ("error sending request for url (" ++ (pageRequest '2').url.text ++ ")")) := by
    rw [pageAnswer, get, asks_second]
    simp only [Server.send, twoPages_second]
  have listed := (pull_request_files_paged anonymous "acme" "shop" 7
    (twoPages (some (listing files)) (some (listing []))) files).1 fun page known within => by
      obtain rfl | rfl : page = 1 ∨ page = 2 := by omega
      · exact first (some (listing []))
      · rw [ended]
        exact delivers_listing asks_second (twoPages_second _ _)
  have failed := (pull_request_files_paged anonymous "acme" "shop" 7 (twoPages (some (listing files)) none) files).2 2 _
    (by decide) (Nat.le_of_eq last.symm) (fun earlier known below => by
      obtain rfl : earlier = 1 := by omega
      exact first none) lost
  rw [last, List.take_of_length_le (by omega)] at listed
  have completed : complete = _ := listed.1
  have stopped : broken = _ := failed
  rw [completed, stopped, requests]
  exact ⟨statuses, rfl, List.append_nil _, rfl, List.append_nil _⟩

end Client

end GitHub

end ReviewContext
