import Guardata.Model.EntryPaths
import Guardata.Model.Handshake
import Guardata.ToMathlib.Base32
import Guardata.ToMathlib.UrlParts

/-! # Addresses as URLs

An address is stored and exchanged as a URL. Every class of addresses reads and writes the URL in the same way,
and brings along what it looks for in the parameters and in the path, and what it writes there. The parameters
are taken out by their names, each of them once, so that taking them out is looking them up.
-/

namespace Guardata

open PercentEncoding Url

/-- What the addresses call and the source does not contain. -/
structure AddressLibrary extends DecodingLibrary where
  texts : TextLibrary
  /-- `VerifyKey.encode`. -/
  encodeKey : VerifyKey → Bytes

inductive AddrError where
  | value (message : String)
  /-- A `ValueError` that comes from a library. -/
  | library
  | assertion
deriving DecidableEq, Repr

def AddrError.isValueError : AddrError → Bool
  | .assertion => false
  | _ => true

def AddrError.ofText : TextError → AddrError
  | .value message => .value message
  | .index => .library

def AddrError.orLibrary {α : Type*} (result : Option α) : Except AddrError α := result.elim (.error .library) .ok

/-- The parameters of a URL in their order. -/
abbrev UrlParams := List (String × String)

namespace UrlParams

def values (params : UrlParams) (name : String) : List String := (params.filter (·.1 = name)).map (·.2)

/-- A parameter that must be there once. -/
def mandatory (params : UrlParams) (name : String) : Except AddrError String :=
  match params.values name with
  | [value] => .ok value
  | _ => .error (.value ("Missing mandatory `" ++ name ++ "` param"))

/-- `urlencode` takes texts. -/
def characters (params : UrlParams) : List (List Char × List Char) :=
  params.map fun param => (param.1.toList, param.2.toList)

def ofQuery (query : List Char) : Except AddrError UrlParams :=
  if query = [] then .ok [] else do
    let fields ← AddrError.orLibrary (parseQsl query)
    return fields.map fun field => (String.ofList field.1, String.ofList field.2)

end UrlParams

/-- `UUID.hex`. -/
def UUID.hex (id : UUID) : List Char :=
  (Base32.digits 16 32 id).map ("0123456789abcdef".toList.getD · '0')

/-- `str(uuid)`. -/
def UUID.text (id : UUID) : List Char :=
  let hex := UUID.hex id
  ['-'].intercalate [hex.take 8, (hex.drop 8).take 4, (hex.drop 12).take 4, (hex.drop 16).take 4, hex.drop 20]

/-- What a class of addresses adds to a `BackendAddr`. -/
structure AddrClass (Fields : Type) where
  /-- `_from_url_parse_and_consume_params` behind `no_ssl`, then `_from_url_parse_path`. -/
  parse : UrlParams → String → Except AddrError Fields
  /-- `_to_url_get_path`. -/
  path : Fields → String
  /-- `_to_url_get_params` around those of `BackendAddr`. -/
  params : UrlParams → Fields → UrlParams

structure Addr (Fields : Type) where
  hostname : String
  port : ℕ
  useSsl : Bool
  fields : Fields
deriving DecidableEq, Repr

def parsecScheme : List Char := "parsec".toList

def defaultPort (useSsl : Bool) : ℕ := if useSsl then 443 else 80

/-- The port to use, and the one to add to the authority if needed. -/
def parsePort (port : Option ℕ) (useSsl : Bool) : ℕ × Option ℕ :=
  match port with
  | some port => if port = defaultPort useSsl then (defaultPort useSsl, none) else (port, some port)
  | none => (defaultPort useSsl, none)

section Urls

variable (lib : AddressLibrary) {Fields : Type}

/-- The parameter says the opposite of what is stored. -/
def useSslOf (value : String) : Except AddrError Bool :=
  let value := lib.texts.lower value.toList
  if value = "false".toList then .ok true
  else if value = "true".toList then .ok false
  else .error (.value "Invalid `no_ssl` param value (must be true or false)")

/-- `BackendAddr._from_url_parse_and_consume_params`. -/
def parseNoSsl (params : UrlParams) : Except AddrError Bool :=
  match params.values "no_ssl" with
  | [] => useSslOf lib "false"
  | [value] => useSslOf lib value
  | _ => .error (.value "Multiple values for param `no_ssl`")

def Addr.fromUrl (cls : AddrClass Fields) (url : String) : Except AddrError (Addr Fields) := do
  let split ← AddrError.orLibrary (urlsplit lib.texts url.toList)
  .require (split.scheme = parsecScheme) (.value "Must start with `parsec://`")
  let hostname := (split.hostname lib.texts).getD []
  .require (hostname ≠ []) (.value "Missing hostname")
  let params ← UrlParams.ofQuery split.query
  let path ← AddrError.orLibrary (unquotePlus .replace split.path)
  let useSsl ← parseNoSsl lib params
  let fields ← cls.parse params (String.ofList path)
  let port ← AddrError.orLibrary split.port
  .require (¬ "parsec://".toList.isPrefixOf hostname) .assertion
  return ⟨String.ofList hostname, (parsePort port useSsl).1, useSsl, fields⟩

/-- `BackendAddr._to_url_get_params`. -/
def noSslParams (useSsl : Bool) : UrlParams := if useSsl then [] else [("no_ssl", "true")]

def Addr.toUrl (cls : AddrClass Fields) (addr : Addr Fields) : String :=
  -- The port 0 is not written either.
  let customPort := (parsePort (some addr.port) addr.useSsl).2.filter (· ≠ 0)
  let query := urlencode (cls.params (noSslParams addr.useSsl) addr.fields).characters
  String.ofList (urlunsplit
    ⟨parsecScheme, writeNetloc addr.hostname.toList customPort, quotePlus (cls.path addr.fields).toList, query, []⟩)

end Urls

section Classes

variable (lib : AddressLibrary)

def exportRootVerifyKey (key : VerifyKey) : String :=
  String.ofList ((Base32.b32encode (lib.encodeKey key)).map fun char => if char = '=' then 's' else char)

def importRootVerifyKey (raw : String) : Option VerifyKey := do
  let bytes ← Base32.b32decode (raw.toList.map fun char => if char = 's' then '=' else char)
  lib.verifyKey (.bytes bytes)

def backendAddr : AddrClass Unit where
  parse _ path := .require (path ∈ ["", "/"]) (.value "Cannot have path")
  path _ := ""
  params noSsl _ := noSsl

/-- `_from_url_parse_path` of the classes that have an organization. -/
def parseOrganizationPath (path : String) : Except AddrError OrganizationID :=
  (OrganizationID.new lib.toDecodingLibrary (String.ofList (path.toList.drop 1))).mapError AddrError.ofText

structure OrganizationFields where
  organizationId : OrganizationID
  rootVerifyKey : VerifyKey
deriving DecidableEq, Repr

namespace OrganizationParamsFixture

/-- `_from_url_parse_and_consume_params`. -/
def parseRvk (params : UrlParams) : Except AddrError VerifyKey := do
  let value ← params.mandatory "rvk"
  (importRootVerifyKey lib value).elim (.error (.value "Invalid `rvk` param value")) .ok

def toParams (noSsl : UrlParams) (fields : OrganizationFields) : UrlParams :=
  noSsl ++ [("rvk", exportRootVerifyKey lib fields.rootVerifyKey)]

end OrganizationParamsFixture

def backendOrganizationAddr : AddrClass OrganizationFields where
  parse params path := do
    let rootVerifyKey ← OrganizationParamsFixture.parseRvk lib params
    let organizationId ← parseOrganizationPath lib path
    return ⟨organizationId, rootVerifyKey⟩
  path fields := fields.organizationId
  params := OrganizationParamsFixture.toParams lib

/-- The action of a URL, which must be the one of the class. -/
def expectAction (params : UrlParams) (action : String) : Except AddrError Unit := do
  let value ← params.mandatory "action"
  .require (value = action) (.value ("Expected `action=" ++ action ++ "` value"))

structure BootstrapFields where
  organizationId : OrganizationID
  token : String
deriving DecidableEq, Repr

def backendOrganizationBootstrapAddr : AddrClass BootstrapFields where
  parse params path := do
    expectAction params "bootstrap_organization"
    let token ← params.mandatory "token"
    .require (token ≠ "") (.value "Empty value in `token` param")
    let organizationId ← parseOrganizationPath lib path
    return ⟨organizationId, token⟩
  path fields := fields.organizationId
  params noSsl fields := [("action", "bootstrap_organization"), ("token", fields.token)] ++ noSsl

/-- The fields of the classes that claim a user or a device, by its id. -/
structure ClaimFields where
  organization : OrganizationFields
  id : String
  token : Option String
deriving DecidableEq, Repr

/-- A token that is missing or blank is not written. -/
def tokenParams : Option String → UrlParams
  | none => []
  | some token => if token = "" then [] else [("token", token)]

/-- A class that claims what the parameter `idName` names. -/
def claimAddr (action idName : String) (parseId : String → Except TextError String) : AddrClass ClaimFields where
  parse params path := do
    let rootVerifyKey ← OrganizationParamsFixture.parseRvk lib params
    expectAction params action
    let rawId ← params.mandatory idName
    let id ← (parseId rawId).mapError fun _ => .value ("Invalid `" ++ idName ++ "` param value")
    let organizationId ← parseOrganizationPath lib path
    return ⟨⟨organizationId, rootVerifyKey⟩, id, (params.values "token").head?⟩
  path fields := fields.organization.organizationId
  params noSsl fields :=
    [("action", action), (idName, fields.id)] ++ tokenParams fields.token ++
      OrganizationParamsFixture.toParams lib noSsl fields.organization

def backendOrganizationClaimUserAddr : AddrClass ClaimFields :=
  claimAddr lib "claim_user" "user_id" (UserID.new lib.toDecodingLibrary)

def backendOrganizationClaimDeviceAddr : AddrClass ClaimFields :=
  claimAddr lib "claim_device" "device_id" (DeviceIDText.new lib.toDecodingLibrary)

structure FileLinkFields where
  organization : OrganizationFields
  workspaceId : EntryID
  path : FsPath
deriving DecidableEq, Repr

def backendOrganizationFileLinkAddr : AddrClass FileLinkFields where
  parse params path := do
    let rootVerifyKey ← OrganizationParamsFixture.parseRvk lib params
    expectAction params "file_link"
    let rawId ← params.mandatory "workspace_id"
    let workspaceId ← (lib.uuidOfText (.str rawId)).elim (.error (.value "Invalid `workspace_id` param value")) .ok
    let rawPath ← params.mandatory "path"
    let linked ← (FsPath.parse lib.normalize rawPath).mapError fun _ => .value "Invalid `path` param value"
    let organizationId ← parseOrganizationPath lib path
    return ⟨⟨organizationId, rootVerifyKey⟩, workspaceId, linked⟩
  path fields := fields.organization.organizationId
  params noSsl fields :=
    [("action", "file_link"), ("workspace_id", String.ofList (UUID.text fields.workspaceId)),
        ("path", FsPath.text fields.path)] ++
      OrganizationParamsFixture.toParams lib noSsl fields.organization

structure InvitationFields where
  organizationId : OrganizationID
  invitationType : InvitationType
  token : UUID
deriving DecidableEq, Repr

def InvitationType.action : InvitationType → String
  | .user => "claim_user"
  | .device => "claim_device"

def InvitationType.ofAction (action : String) : Except AddrError InvitationType :=
  if action = "claim_user" then .ok .user
  else if action = "claim_device" then .ok .device
  else .error (.value "Expected `action=claim_user` or `action=claim_device` value")

def backendInvitationAddr : AddrClass InvitationFields where
  parse params path := do
    let action ← params.mandatory "action"
    let invitationType ← InvitationType.ofAction action
    let rawToken ← params.mandatory "token"
    let token ← (lib.uuidOfText (.str rawToken)).elim (.error (.value "Invalid `token` param value")) .ok
    let organizationId ← parseOrganizationPath lib path
    return ⟨organizationId, invitationType, token⟩
  path fields := fields.organizationId
  params noSsl fields :=
    [("action", fields.invitationType.action), ("token", String.ofList (UUID.hex fields.token))] ++ noSsl

end Classes

/-- An address of one of the classes that stand for an action. -/
inductive BackendActionAddr where
  | bootstrap (addr : Addr BootstrapFields)
  | claimUser (addr : Addr ClaimFields)
  | claimDevice (addr : Addr ClaimFields)
  | fileLink (addr : Addr FileLinkFields)
  | invitation (addr : Addr InvitationFields)
deriving DecidableEq, Repr

namespace BackendActionAddr

/-- The body of the loop: a `ValueError` passes on to the next class. -/
def attempt (first rest : Except AddrError BackendActionAddr) : Except AddrError BackendActionAddr :=
  match first with
  | .ok addr => .ok addr
  | .error error => if error.isValueError then rest else .error error

variable (lib : AddressLibrary)

def fromUrl (url : String) : Except AddrError BackendActionAddr :=
  attempt ((Addr.fromUrl lib (backendOrganizationBootstrapAddr lib) url).map .bootstrap) <|
  attempt ((Addr.fromUrl lib (backendOrganizationClaimUserAddr lib) url).map .claimUser) <|
  attempt ((Addr.fromUrl lib (backendOrganizationClaimDeviceAddr lib) url).map .claimDevice) <|
  attempt ((Addr.fromUrl lib (backendOrganizationFileLinkAddr lib) url).map .fileLink) <|
  attempt ((Addr.fromUrl lib (backendInvitationAddr lib) url).map .invitation) <|
  .error (.value "Invalid URL format")

def toUrl : BackendActionAddr → String
  | .bootstrap addr => addr.toUrl (backendOrganizationBootstrapAddr lib)
  | .claimUser addr => addr.toUrl (backendOrganizationClaimUserAddr lib)
  | .claimDevice addr => addr.toUrl (backendOrganizationClaimDeviceAddr lib)
  | .fileLink addr => addr.toUrl (backendOrganizationFileLinkAddr lib)
  | .invitation addr => addr.toUrl (backendInvitationAddr lib)

end BackendActionAddr

end Guardata
