import ReviewContext.GitHub.Content
import ReviewContext.Proofs.Text.Base64

/-! # What the contents of a file are taken for

The text of a file is given back for the base64 of its bytes, wherever lines and words are broken in that, and for
nothing else: content that is filled wrongly, has bits to spare, foreign characters or bytes of no text is refused.
-/

namespace ReviewContext.GitHub.Content

variable {path : String} {body : Content} {bytes : List UInt8}

/-- Without its blanks, the content is the encoding of bytes. -/
def Carries (body : Content) (bytes : List UInt8) : Prop :=
  body.content.toList.filter (!Text.isBlank ·) = Base64.encode bytes

/-- A text, in the one encoding that is supported, with blanks anywhere. -/
def Wraps (body : Content) (text : String) : Prop :=
  body.encoding = "base64" ∧ body.Carries (Utf8.encode text.toList)

private theorem decode_symbols_eq_ok_iff : Base64.decode body.symbols = .ok bytes ↔ body.Carries bytes := by
  rw [Base64.decode_eq_ok_iff, symbols, Base64.written, Utf8.encode_injective.eq_iff, Carries]

private theorem Wraps.decode {text : String} (wraps : body.Wraps text) (path : String) :
    body.decode path = .ok text := by
  obtain ⟨known, carries⟩ := wraps
  rw [Content.decode, if_neg (not_not_intro known), decode_symbols_eq_ok_iff.mpr carries]
  dsimp only
  rw [Utf8.decode_eq_ok_iff.mpr rfl]
  dsimp only
  rw [String.ofList_toList]

private theorem wraps_or_refused (path : String) (body : Content) :
    (∃ text, body.Wraps text) ∨ ∃ reason, body.decode path = .error (.api (path ++ reason)) := by
  fun_cases body.decode path with
  | case1 other => exact .inr ⟨_, by rw [String.append_assoc, String.append_assoc]⟩
  | case2 known fault faulty => exact .inr ⟨_, by rw [String.append_assoc]⟩
  | case3 known bytes carried fault stray => exact .inr ⟨_, rfl⟩
  | case4 known bytes carried text read =>
    obtain rfl := Utf8.decode_eq_ok_iff.mp read
    refine .inl ⟨String.ofList text, not_not.mp known, ?_⟩
    rw [String.toList_ofList]
    exact decode_symbols_eq_ok_iff.mp carried

/-- A text is decoded exactly where it is wrapped, and content that wraps none is refused under its path. -/
theorem decode_exact (path : String) (body : Content) :
    (∀ text, body.decode path = .ok text ↔ body.Wraps text) ∧
      ((∃ reason, body.decode path = .error (.api (path ++ reason))) ↔ ∀ text, ¬ body.Wraps text) := by
  constructor
  · intro text
    constructor
    · intro decoded
      rcases wraps_or_refused path body with ⟨other, wraps⟩ | ⟨reason, refused⟩
      · obtain rfl := Except.ok.inj (decoded.symm.trans (wraps.decode path))
        exact wraps
      · cases decoded.symm.trans refused
    · exact fun wraps => wraps.decode path
  · constructor
    · rintro ⟨reason, refused⟩ text wraps
      cases refused.symm.trans (wraps.decode path)
    · intro none
      rcases wraps_or_refused path body with ⟨text, wraps⟩ | refused
      · exact absurd wraps (none text)
      · exact refused

/-- Of these, the third is not filled, the fourth has bits to spare, the fifth a foreign character, and the last is of
a byte that no text has. -/
example : ["Zm8=", " Z\nm 8\r\n=", "Zm8", "Zm9=", "Zm8-", "/w=="].map
    (fun content => (decode "a.ts" ⟨content, "base64"⟩).toOption) =
      [some "fo", some "fo", none, none, none, none] := by decide

end ReviewContext.GitHub.Content
