import ReviewContext.Web.Url

/-! # Requests and responses

What is sent to a server of the web and what it answers. A server here is a table of routes that notes
every request. The reason of a status is the one the protocol registers for it.
-/

namespace ReviewContext.Web

structure Request where
  url : Url
  headers : List (String × String)

structure Response where
  status : Nat
  headers : List (String × String)
  body : List UInt8

namespace Response

def isSuccess (response : Response) : Bool :=
  200 ≤ response.status && response.status < 300

def lowerName (name : String) : List Char :=
  name.toList.map Char.toLower

/-- The value of a header, whose name may be in either case. -/
def header? (response : Response) (name : String) : Option String :=
  ((response.headers.find? fun (other, _) => lowerName other == lowerName name).map (·.2)).map
    fun value => String.ofList (Text.trim value.toList)

end Response

/-- Reasons by status. -/
def reasons : List (Nat × String) :=
  [(100, "Continue"), (101, "Switching Protocols"), (102, "Processing"), (200, "OK"),
    (201, "Created"), (202, "Accepted"), (203, "Non Authoritative Information"),
    (204, "No Content"), (205, "Reset Content"), (206, "Partial Content"), (207, "Multi-Status"),
    (208, "Already Reported"), (226, "IM Used"), (300, "Multiple Choices"),
    (301, "Moved Permanently"), (302, "Found"), (303, "See Other"), (304, "Not Modified"),
    (305, "Use Proxy"), (307, "Temporary Redirect"), (308, "Permanent Redirect"),
    (400, "Bad Request"), (401, "Unauthorized"), (402, "Payment Required"), (403, "Forbidden"),
    (404, "Not Found"), (405, "Method Not Allowed"), (406, "Not Acceptable"),
    (407, "Proxy Authentication Required"), (408, "Request Timeout"), (409, "Conflict"),
    (410, "Gone"), (411, "Length Required"), (412, "Precondition Failed"),
    (413, "Payload Too Large"), (414, "URI Too Long"), (415, "Unsupported Media Type"),
    (416, "Range Not Satisfiable"), (417, "Expectation Failed"), (418, "I'm a teapot"),
    (421, "Misdirected Request"), (422, "Unprocessable Entity"), (423, "Locked"),
    (424, "Failed Dependency"), (425, "Too Early"), (426, "Upgrade Required"),
    (428, "Precondition Required"), (429, "Too Many Requests"),
    (431, "Request Header Fields Too Large"), (451, "Unavailable For Legal Reasons"),
    (500, "Internal Server Error"), (501, "Not Implemented"), (502, "Bad Gateway"),
    (503, "Service Unavailable"), (504, "Gateway Timeout"), (505, "HTTP Version Not Supported"),
    (506, "Variant Also Negotiates"), (507, "Insufficient Storage"), (508, "Loop Detected"),
    (510, "Not Extended"), (511, "Network Authentication Required")]

/-- A status and its reason. -/
def statusText (status : Nat) : String :=
  toString status ++ " " ++
    (((reasons.find? (·.1 == status)).map (·.2)).getD "<unknown status code>")

/-- A route answers the requests for its path, and only those with its query if it has one. Without a
response it closes the connection. -/
structure Route where
  path : List Char
  query? : Option (List Char)
  response? : Option Response

namespace Route

def answers (route : Route) (request : Request) : Bool :=
  route.path == request.url.path &&
    (match route.query? with
    | some query => query == request.url.query?.getD []
    | none => true)

end Route

structure Server where
  routes : List Route
  /-- What any other request gets; without a response the connection is closed. -/
  otherwise? : Option Response
  /-- The requests, the last first. -/
  requests : List Request

namespace Server

/-- The response of the first route that answers. -/
def response? (server : Server) (request : Request) : Option Response :=
  match server.routes.find? (·.answers request) with
  | some route => route.response?
  | none => server.otherwise?

def send (request : Request) (server : Server) : Option Response × Server :=
  (server.response? request, { server with requests := request :: server.requests })

end Server

end ReviewContext.Web
