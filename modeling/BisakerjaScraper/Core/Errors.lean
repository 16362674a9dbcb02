import BisakerjaScraper.Python.Json

/-! Exceptions.

    The stages read an exception through its class and the attributes of `ScraperError`, so one
    type holds them all: the scraper's own errors by their class, any other exception by its name. -/

namespace Bisakerja

/-- The classes of `ScraperError`. -/
inductive ErrorClass where | fetch | config | parse | normalize | persist | sync
  deriving DecidableEq

/-- `ScraperError.code`. -/
def ErrorClass.code : ErrorClass → String
  | .fetch => "FETCH_ERROR"
  | .config => "CONFIG_ERROR"
  | .parse => "PARSE_ERROR"
  | .normalize => "NORMALIZE_ERROR"
  | .persist => "PERSIST_ERROR"
  | .sync => "SYNC_ERROR"

/-- A raised exception. -/
inductive PyException where
  | scraper (errorClass : ErrorClass) (message : String) (externalId : Option String)
      (retryable : Bool) (details : Dict)
  | other (className message : String) (code : Option String) (retryable : Bool)

namespace PyException

/-- `exc.__class__` is one the page loops catch: `FetchError` or `ParseError`. -/
def isFetchOrParse : PyException → Bool
  | .scraper .fetch _ _ _ _ => true
  | .scraper .parse _ _ _ _ => true
  | _ => false

/-- `exc.code`, or the name of its class: `exception_category`. -/
def category : PyException → String
  | .scraper errorClass _ _ _ _ => errorClass.code
  | .other className _ code _ => code.getD className

/-- `str(exc)`. -/
def message : PyException → String
  | .scraper _ message _ _ _ => message
  | .other _ message _ _ => message

/-- `retryable_from`. -/
def retryable : PyException → Bool
  | .scraper _ _ _ retryable _ => retryable
  | .other _ _ _ retryable => retryable

/-- `source_field_path_from`. -/
def sourceFieldPath : PyException → Option String
  | .scraper _ _ _ _ details =>
    let path := details.get "source_field_path"
    match if path.truthy then path else details.get "field" with
    | .str s => some s
    | _ => none
  | .other _ _ _ _ => none

/-- An exception outside the scraper's own classes and without their attributes. -/
def plain (className message : String) : PyException := .other className message none false

end PyException

end Bisakerja
