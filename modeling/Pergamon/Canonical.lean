import Pergamon.Rules

/-!
Canonical urls, by which saved pages are known again. Fragment, default port and tracking
parameters go, and the other pairs of the query are sorted. They are decoded before, and written
back as they are.
-/
namespace Pergamon

/-- A parsed url. -/
structure Url where
  scheme : String
  credentials : String
  host : String
  port : Option ℕ
  path : String
  query : Option String
  fragment : Option String
  deriving DecidableEq

/-- The url crate: the url of a text, or what is wrong with it; the text of a url; the decoded pairs
    of a query; and the query that is stored when one is set. -/
class UrlCrate where
  parse : String → Except String Url
  to_string : Url → String
  query_pairs : String → List (String × String)
  stored_query : String → String

inductive ExtractError where
  | Extract (message : String)
  deriving DecidableEq

/-- Tracking query parameters to strip during canonicalization. -/
def TRACKING_PARAMS : List String :=
  ["utm_source","utm_medium","utm_campaign","utm_term","utm_content","utm_id","fbclid","gclid","gclsrc","dclid","msclkid",
    "mc_cid","mc_eid","ref","_hsenc","_hsmi","mkt_tok"]

/-- Pairs by their keys, and by their values where these are the same. -/
def pair_le (a b : String × String) : Prop := a.1 < b.1 ∨ a.1 = b.1 ∧ a.2 ≤ b.2

instance (a b : String × String) : Decidable (pair_le a b) := inferInstanceAs (Decidable (_ ∨ _))

/-- A pair as it is written back. -/
def write_pair (pair : String × String) : String := if pair.2 = "" then pair.1 else pair.1 ++ "=" ++ pair.2

namespace Url

def is_default_port (u : Url) : Bool := decide (u.scheme = "http" ∧ u.port = some 80 ∨ u.scheme = "https" ∧ u.port = some 443)

section
variable [UrlCrate] [Unicode]

omit [Unicode] in
def decoded_pairs (u : Url) : List (String × String) := u.query.elim [] UrlCrate.query_pairs

/-- The pairs of the query that do not track. -/
def query_pairs (u : Url) : List (String × String) :=
  u.decoded_pairs.filter (fun pair => Unicode.to_lowercase pair.1 ∉ TRACKING_PARAMS)

/-- The query that is written back. -/
def kept_query (u : Url) : Option String :=
  if u.query_pairs = [] then none
  else some (UrlCrate.stored_query ("&".intercalate ((u.query_pairs.insertionSort pair_le).map write_pair)))

/-- What is left of a url. -/
def stripped (u : Url) : Url :=
  { u with port := if u.is_default_port then none else u.port, query := u.kept_query, fragment := none }

end

end Url

/-- Canonicalize a URL for dedup comparisons. -/
def canonicalize_url [UrlCrate] [Unicode] (raw : String) : Except ExtractError String := do
  let parsed ← (UrlCrate.parse raw).mapError (fun e => .Extract ("invalid URL: " ++ e))
  if parsed.scheme = "http" ∨ parsed.scheme = "https" then
    let result := UrlCrate.to_string parsed.stripped
    return if result.toList.getLast? = some '/' ∧ parsed.path ≠ "/" then String.ofList result.toList.dropLast else result
  else throw (.Extract ("unsupported URL scheme: " ++ parsed.scheme))

end Pergamon
