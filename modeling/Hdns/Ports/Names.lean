import Hdns.Ports.Schema

/-!
# The names a record's certificate is issued for

`buildDomains` turns a record into the names of its certificate; it is what the
certificate row, the ACME order and the directory of the files are made from.
-/

namespace Hdns.Ports.Names

open Hdns.Verified
open Hdns.Verified.GoString
open Hdns.Ports.Schema

def wildcardPrefix : GoString := "*."

/-- `buildDomains`: the certificate names of a record, the primary one first. -/
def buildDomains (record : Record) : List GoString :=
  let domain := record.domain.trimSuffix "."
  let primary :=
    if record.name = lit "@" ∨ record.name = [] then domain
    else if record.name = lit "*" then wildcardPrefix ++ domain
    else record.name ++ lit "." ++ domain
  if record.includeWildcard then
    let wildcard := wildcardPrefix ++ primary.trimPrefix wildcardPrefix
    if wildcard ≠ primary then [primary, wildcard] else [primary]
  else [primary]

/-- `strings.Join(domains, ",")`, the `domains` column of a certificate. -/
def joinDomains (domains : List GoString) : GoString :=
  GoString.join domains ","

end Hdns.Ports.Names
