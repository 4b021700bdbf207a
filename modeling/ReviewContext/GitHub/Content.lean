import ReviewContext.Host.Basic
import ReviewContext.Text.Base64
import ReviewContext.Text.Utf8

/-! # Contents of files on GitHub

A file comes as the base64 of its bytes, with line breaks anywhere, and has to be a text.
-/

namespace ReviewContext.GitHub

structure Content where
  content : String
  encoding : String

namespace Content

def ofJson? (value : Json) : Option Content := do
  match ← value.fields? ["content", "encoding"] with
  | [content, encoding] =>
    return ⟨← Field.withDefault? Json.string? "" content, ← Field.withDefault? Json.string? "" encoding⟩
  | _ => none

/-- The bytes of the symbols that are written. -/
def symbols (body : Content) : List UInt8 :=
  Utf8.encode (body.content.toList.filter (!Text.isBlank ·))

/-- The text of the file at `path`. -/
def decode (path : String) (body : Content) : Except AccessError String :=
  if body.encoding ≠ "base64" then
    .error (.api (path ++ ": unsupported content encoding '" ++ body.encoding ++ "'"))
  else
    match Base64.decode body.symbols with
    | .error fault => .error (.api (path ++ ": invalid base64 content: " ++ fault.message))
    | .ok bytes =>
      match Utf8.decode bytes with
      | .error _ => .error (.api (path ++ " is not valid UTF-8"))
      | .ok text => .ok (String.ofList text)

end Content

end ReviewContext.GitHub
