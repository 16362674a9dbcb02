import BisakerjaScraper.Core.Errors
import BisakerjaScraper.Schemes.Fallible

/-! Requests, from the bytes of a body to what the adapters read.

    The HTTP client turns a body that is no JSON, or no object, into a `FetchError`. It catches
    nothing else that decoding raises: bytes in no encoding, nesting that is too deep, a number with
    too many digits. What the last attempt of a request gives, bytes or an exception, is an input. -/

namespace Bisakerja
open Schemes

/-- The bytes of a response. -/
abbrev Body := List UInt8

/-- `json.loads`: of a body, which it decodes first, and of a text. -/
structure JsonLoads where
  ofBody : Body → Except PyException Json
  ofText : String → Except PyException Json

/-- `except json.JSONDecodeError`. -/
def PyException.isJsonDecodeError : PyException → Bool
  | .scraper .. => false
  | .other className .. => className = "JSONDecodeError"

/-- A `FetchError` of the client that is not retried. -/
def fetchError (message : String) (details : Dict) : PyException :=
  .scraper .fetch message none false details

/-- An exception that the page loops do not catch. -/
abbrev Escapes {α : Type} (outcome : Except PyException α) : Prop :=
  Fails (fun exc => exc.isFetchOrParse = false) outcome

/-- An exception passes a sequence from its first half, or from its second. -/
theorem escapes_bind_iff {α β : Type} {x : Except PyException α} {f : α → Except PyException β} :
    Escapes (x >>= f) ↔ Escapes x ∨ ∃ a, x = .ok a ∧ Escapes (f a) := fails_bind_iff

/-- `request_json` on what its last attempt gives. -/
def requestJson (loads : JsonLoads) (response : Except PyException Body) :
    Except PyException Dict := do
  let body ← response
  match loads.ofBody body with
  | .ok (.dict entries) => .ok entries
  | .ok _ => .error (fetchError "source response JSON root must be an object" [])
  | .error exc =>
    if exc.isJsonDecodeError then
      .error (fetchError "source response is not valid JSON" [("error", .str "JSONDecodeError")])
    else .error exc

/-- `body.decode("utf-8")`. -/
def decodeUtf8 (body : Body) : Except PyException String :=
  match String.fromUTF8? ⟨body.toArray⟩ with
  | some text => .ok text
  | none => .error (.plain "UnicodeDecodeError" "'utf-8' codec can't decode byte")

/-- `request_text` on what its last attempt gives. -/
def requestText (response : Except PyException Body) : Except PyException String :=
  response.bind decodeUtf8

/-- The response to a JSON request is an exception the loops do not catch, or a body whose decoding
    raises something other than a `JSONDecodeError`. -/
def ResponseBroken (loads : JsonLoads) (response : Except PyException Body) : Prop :=
  Escapes response ∨ ∃ body exc, response = .ok body ∧ loads.ofBody body = .error exc ∧
    exc.isJsonDecodeError = false ∧ exc.isFetchOrParse = false

/-- The response to a text request is an exception the loops do not catch, or no UTF-8. -/
def TextBroken (response : Except PyException Body) : Prop :=
  Escapes response ∨ ∃ body, response = .ok body ∧ String.fromUTF8? ⟨body.toArray⟩ = none

theorem escapes_requestJson_iff {loads : JsonLoads} {response : Except PyException Body} :
    Escapes (requestJson loads response) ↔ ResponseBroken loads response := by
  unfold requestJson ResponseBroken
  rw [Escapes, fails_bind_iff]
  refine or_congr_right (exists_congr fun body => ?_)
  rcases loads.ofBody body with exc | (_ | _ | _ | _ | _ | _ | entries)
  · by_cases hdecode : exc.isJsonDecodeError = true
    · simp [hdecode, fetchError, PyException.isFetchOrParse]
    · simp [hdecode]
  all_goals simp [fetchError, PyException.isFetchOrParse]

theorem escapes_requestText_iff {response : Except PyException Body} :
    Escapes (requestText response) ↔ TextBroken response := by
  refine fails_bind_iff.trans (or_congr_right (exists_congr fun body => and_congr_right fun _ => ?_))
  unfold decodeUtf8
  cases String.fromUTF8? ⟨body.toArray⟩ with
  | none => simp [PyException.plain, PyException.isFetchOrParse]
  | some text => simp

end Bisakerja
