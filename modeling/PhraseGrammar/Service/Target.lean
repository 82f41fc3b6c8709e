import PhraseGrammar.Unicode.Digit

/-!
# Targets of requests

A request is sent to a URL, of which only the path chooses what is asked for.
The path stands between the host and the query or the fragment, and characters
in it may be written by percent escapes.
-/

namespace PhraseGrammar.Service.Target

/-- A URL without what is passed over in front of it, and without the line breaks in it. -/
def clean (url : List Char) : List Char :=
  (url.dropWhile fun c => c.toNat ≤ 0x20).filter fun c => c ≠ '\t' ∧ c ≠ '\n' ∧ c ≠ '\r'

def isSchemeChar (c : Char) : Bool :=
  c.isAlphanum || c = '+' || c = '-' || c = '.'

/-- What follows the scheme, which opens with a letter and ends with a colon. -/
def dropScheme (url : List Char) : List Char :=
  match url.head?, url.dropWhile isSchemeChar with
  | some first, ':' :: rest => if first.isAlpha then rest else url
  | _, _ => url

/-- What follows the host, which two slashes announce. -/
def dropHost : List Char → List Char
  | '/' :: '/' :: rest => rest.dropWhile fun c => c ≠ '/' ∧ c ≠ '?' ∧ c ≠ '#'
  | url => url

def dropOrigin (url : List Char) : List Char :=
  dropHost (dropScheme (clean url))

/-- A path with its percent escapes replaced by what they stand for. -/
def unescape : List Char → List Char
  | [] => []
  | '%' :: high :: low :: rest =>
      match Unicode.hexDigit? high, Unicode.hexDigit? low with
      | some high, some low => Char.ofNat (16 * high + low) :: unescape rest
      | _, _ => '%' :: unescape (high :: low :: rest)
  | c :: rest => c :: unescape rest

/--
The path of a URL without the slashes in front of it. The origin is taken off
twice, once from the URL and once from the path, which is sent as a URL again.
-/
def path (url : String) : String :=
  let path := (dropOrigin url.toList).takeWhile fun c => c ≠ '?' ∧ c ≠ '#'
  String.ofList ((unescape (dropOrigin path)).dropWhile (· = '/'))

example : path "/ping?x=1" = "ping" := by decide +kernel

example : path "/p%69ng#end" = "ping" := by decide +kernel

example : path "http://localhost/ping" = "ping" := by decide +kernel

example : path "//ping" = "" := by decide +kernel

example : path "/%2Fping" = "ping" := by decide +kernel

end PhraseGrammar.Service.Target
