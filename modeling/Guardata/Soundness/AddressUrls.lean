import Guardata.Proofs.BackendAddr
import Guardata.Proofs.DecodedData

/-! # Addresses round-trip through their URLs

A host is written without the brackets that it was read with, so that an IP literal is not read again. The port 0
counts as no port when it is written. A blank token is not written at all and is missing then, and a link may lead
through a name whose normal form has become too long. Whatever else a URL contains comes back, for every class and
for the class that is found by trying.
-/

namespace Guardata

open PercentEncoding Url

variable {lib : AddressLibrary} {Fields : Type} {cls : AddrClass Fields} {addr : Addr Fields} {url : String}

section Conditions

/-- The parts of a URL that can be taken apart. -/
def splitUrl (lib : AddressLibrary) (url : String) : SplitResult :=
  (urlsplit lib.texts url.toList).getD ⟨[], [], [], [], []⟩

/-- The parameters of a URL, if they can be read. -/
def urlParams (lib : AddressLibrary) (url : String) : UrlParams :=
  (UrlParams.ofQuery (splitUrl lib url).query).toOption.getD []

/-- The host of the URL is neither a bracketed literal with a colon nor next to stray brackets, and the port is
not 0. -/
structure HasPlainAuthority (lib : AddressLibrary) (url : String) : Prop where
  host : ∀ host ∈ (splitUrl lib url).hostname lib.texts, ∀ char ∈ [':', '[', ']'], char ∉ host
  port : (splitUrl lib url).port ≠ some (some 0)

def HasNoBlankToken (params : UrlParams) : Prop := (params.values "token").head? ≠ some ""

/-- What the action of the URL asks of its parameters. -/
def KeepsAction (lib : AddressLibrary) (params : UrlParams) : Prop :=
  ∀ action ∈ params.values "action",
    (action ∈ ["claim_user", "claim_device"] → HasNoBlankToken params) ∧
      (action = "file_link" → HasShortNames lib params)

end Conditions

section Classes

theorem Addr.IsRead.hasPlainAuthority_iff {split : SplitResult} {host path : List Char} {params : UrlParams}
    {port : Option ℕ} (taken : urlsplit lib.texts url.toList = some split)
    (read : IsRead lib cls split host params path port addr) :
    HasPlainAuthority lib url ↔ addr.NeedsNoBrackets ∧ addr.port ≠ 0 := by
  have default : defaultPort addr.useSsl ≠ 0 := by rw [defaultPort]; split <;> decide
  have parts : splitUrl lib url = split := by rw [splitUrl, taken, Option.getD_some]
  have custom : addr.port ≠ 0 ↔ split.port ≠ some (some 0) := by
    rw [read.customPort, parsePort_fst, read.hasPort]
    cases port with
    | none => simp [default]
    | some port => simp
  rw [custom, Addr.NeedsNoBrackets, read.hostname, String.toList_ofList]
  constructor
  · rintro ⟨hosts, port⟩
    rw [parts] at hosts port
    exact ⟨hosts host read.hasHost, port⟩
  · rintro ⟨plain, port⟩
    refine ⟨fun other found => ?_, parts ▸ port⟩
    rw [parts, read.hasHost] at found
    cases found
    exact plain

theorem Addr.isValid_of_fromUrl (documented : lib.Documented) (accepted : fromUrl lib cls url = .ok addr) :
    addr.IsValid lib := by
  obtain ⟨split, taken, _, _, _, _, read⟩ := fromUrl_eq_ok_iff.mp accepted
  exact read.isValid documented taken

theorem Addr.IsRead.urlParams_eq {split : SplitResult} {host path : List Char} {params : UrlParams}
    {port : Option ℕ} (taken : urlsplit lib.texts url.toList = some split)
    (read : IsRead lib cls split host params path port addr) : urlParams lib url = params := by
  rw [urlParams, splitUrl, taken, Option.getD_some, read.hasParams]
  rfl

variable {kept : UrlParams → Prop}

/-- The address that a class reads from a URL comes back if the URL has a plain authority and if its parameters
were kept. -/
theorem AddrClass.Rereads.fromUrl_toUrl_iff (rereads : cls.Rereads kept) (documented : lib.Documented)
    (accepted : Addr.fromUrl lib cls url = .ok addr) :
    Addr.fromUrl lib cls (addr.toUrl cls) = .ok addr ↔ HasPlainAuthority lib url ∧ kept (urlParams lib url) := by
  obtain ⟨split, taken, host, params, path, port, read⟩ := Addr.fromUrl_eq_ok_iff.mp accepted
  have valid := read.isValid documented taken
  rw [read.hasPlainAuthority_iff taken, read.urlParams_eq taken, ← rereads.parse_iff read.fields addr.useSsl]
  constructor
  · intro reread
    have plain := valid.needsNoBrackets documented reread rfl
    rw [valid.fromUrl_toUrl documented plain (rereads.noSsl ..), Except.map_eq_ok_iff] at reread
    obtain ⟨fields, parsed, same⟩ := reread
    obtain ⟨-, port, -, is⟩ := Addr.mk.inj same
    exact ⟨⟨plain, addr.writtenPort_eq.mp port⟩, is ▸ parsed⟩
  · rintro ⟨⟨plain, port⟩, parsed⟩
    rw [valid.fromUrl_toUrl documented plain (rereads.noSsl ..), parsed, addr.writtenPort_eq.mpr port]
    rfl

end Classes

section Dispatch

namespace BackendActionAddr

variable {address : BackendActionAddr}

/-- A class that does not raise its assertion either reads the URL or leaves it to the next ones. -/
theorem attempt_eq_ok_iff {first rest : Except AddrError BackendActionAddr} (never : first ≠ .error .assertion) :
    attempt first rest = .ok address ↔ first = .ok address ∨ (∀ other, first ≠ .ok other) ∧ rest = .ok address := by
  cases first with
  | ok found => simp [attempt]
  | error error =>
    have value : error.isValueError = true := by
      cases error with
      | assertion => exact absurd rfl never
      | value message => rfl
      | library => rfl
    simp [attempt, value]

def Accepts (lib : AddressLibrary) (cls : AddrClass Fields) (url : String) : Prop :=
  ∃ addr, Addr.fromUrl lib cls url = .ok addr

/-- The address is read by its class, and none of the classes that are tried before accepts the URL. -/
def IsReadFrom (lib : AddressLibrary) (url : String) : BackendActionAddr → Prop
  | .bootstrap addr => Addr.fromUrl lib (backendOrganizationBootstrapAddr lib) url = .ok addr
  | .claimUser addr =>
    ¬ Accepts lib (backendOrganizationBootstrapAddr lib) url ∧
      Addr.fromUrl lib (backendOrganizationClaimUserAddr lib) url = .ok addr
  | .claimDevice addr =>
    ¬ Accepts lib (backendOrganizationBootstrapAddr lib) url ∧
      ¬ Accepts lib (backendOrganizationClaimUserAddr lib) url ∧
      Addr.fromUrl lib (backendOrganizationClaimDeviceAddr lib) url = .ok addr
  | .fileLink addr =>
    ¬ Accepts lib (backendOrganizationBootstrapAddr lib) url ∧
      ¬ Accepts lib (backendOrganizationClaimUserAddr lib) url ∧
      ¬ Accepts lib (backendOrganizationClaimDeviceAddr lib) url ∧
      Addr.fromUrl lib (backendOrganizationFileLinkAddr lib) url = .ok addr
  | .invitation addr =>
    ¬ Accepts lib (backendOrganizationBootstrapAddr lib) url ∧
      ¬ Accepts lib (backendOrganizationClaimUserAddr lib) url ∧
      ¬ Accepts lib (backendOrganizationClaimDeviceAddr lib) url ∧
      ¬ Accepts lib (backendOrganizationFileLinkAddr lib) url ∧
      Addr.fromUrl lib (backendInvitationAddr lib) url = .ok addr

theorem map_ne_assertion {result : Except AddrError (Addr Fields)} {wrap : Addr Fields → BackendActionAddr}
    (never : result ≠ .error .assertion) : result.map wrap ≠ .error .assertion := by
  cases result with
  | ok addr => exact nofun
  | error error => exact fun same => never (congrArg Except.error (Except.error.inj same))

theorem map_ne_ok_iff {wrap : Addr Fields → BackendActionAddr} :
    (∀ other, (Addr.fromUrl lib cls url).map wrap ≠ .ok other) ↔ ¬ Accepts lib cls url := by
  simp [Accepts, Except.map_eq_ok_iff]

theorem fromUrl_eq_ok_iff (documented : lib.Documented) :
    fromUrl lib url = .ok address ↔ IsReadFrom lib url address := by
  have never {Fields : Type} {cls : AddrClass Fields} {kept : UrlParams → Prop} (wrap : Addr Fields → BackendActionAddr)
      (rereads : cls.Rereads kept) : (Addr.fromUrl lib cls url).map wrap ≠ .error .assertion :=
    map_ne_assertion (Addr.fromUrl_ne_assertion documented rereads.never url)
  rw [fromUrl, attempt_eq_ok_iff (never .bootstrap backendOrganizationBootstrapAddr_rereads),
    attempt_eq_ok_iff (never .claimUser (backendOrganizationClaimUserAddr_rereads documented)),
    attempt_eq_ok_iff (never .claimDevice (backendOrganizationClaimDeviceAddr_rereads documented)),
    attempt_eq_ok_iff (never .fileLink (backendOrganizationFileLinkAddr_rereads documented)),
    attempt_eq_ok_iff (never .invitation (backendInvitationAddr_rereads documented))]
  simp only [map_ne_ok_iff, Except.map_eq_ok_iff, reduceCtorEq, and_false, or_false]
  cases address <;> simp [IsReadFrom]

/-- A class that cannot read what was written does not accept the URL. -/
theorem not_accepts {Fields' : Type} {cls' : AddrClass Fields'} {kept : UrlParams → Prop} (documented : lib.Documented)
    (rereads : cls.Rereads kept) (valid : addr.IsValid lib)
    (reread : Addr.fromUrl lib cls (addr.toUrl cls) = .ok addr)
    (mismatch : ∀ path fields, cls'.parse (cls.params (noSslParams addr.useSsl) addr.fields) path ≠ .ok fields) :
    ¬ Accepts lib cls' (addr.toUrl cls) := by
  rintro ⟨other, accepted⟩
  have plain := valid.needsNoBrackets documented reread rfl
  rw [valid.fromUrl_toUrl documented plain (rereads.noSsl ..), Except.map_eq_ok_iff] at accepted
  obtain ⟨fields, parsed, -⟩ := accepted
  exact mismatch _ fields parsed

section Expectations

variable {params : UrlParams} {path : String}

theorem bootstrap_action {fields : BootstrapFields}
    (parsed : (backendOrganizationBootstrapAddr lib).parse params path = .ok fields) :
    params.values "action" = ["bootstrap_organization"] := by
  simp only [backendOrganizationBootstrapAddr, Except.bind_eq_ok_iff, expectAction_eq_ok_iff, exists_const] at parsed
  exact parsed.1

theorem claimUser_action {fields : ClaimFields}
    (parsed : (backendOrganizationClaimUserAddr lib).parse params path = .ok fields) :
    params.values "action" = ["claim_user"] ∧ params.values "rvk" ≠ [] := by
  obtain ⟨rvk, action, -⟩ := claimAddr_parse_iff.mp parsed
  obtain ⟨raw, found, -⟩ := OrganizationParamsFixture.parseRvk_eq_ok_iff.mp rvk
  exact ⟨action, found ▸ List.cons_ne_nil raw []⟩

theorem claimDevice_action {fields : ClaimFields}
    (parsed : (backendOrganizationClaimDeviceAddr lib).parse params path = .ok fields) :
    params.values "action" = ["claim_device"] ∧ params.values "rvk" ≠ [] := by
  obtain ⟨rvk, action, -⟩ := claimAddr_parse_iff.mp parsed
  obtain ⟨raw, found, -⟩ := OrganizationParamsFixture.parseRvk_eq_ok_iff.mp rvk
  exact ⟨action, found ▸ List.cons_ne_nil raw []⟩

theorem fileLink_action {fields : FileLinkFields}
    (parsed : (backendOrganizationFileLinkAddr lib).parse params path = .ok fields) :
    params.values "action" = ["file_link"] ∧ params.values "rvk" ≠ [] := by
  obtain ⟨rvk, action, -⟩ := backendOrganizationFileLinkAddr_parse_iff.mp parsed
  obtain ⟨raw, found, -⟩ := OrganizationParamsFixture.parseRvk_eq_ok_iff.mp rvk
  exact ⟨action, found ▸ List.cons_ne_nil raw []⟩

theorem keepsAction_bootstrap (is : params.values "action" = ["bootstrap_organization"]) : KeepsAction lib params := by
  simp [KeepsAction, is]

theorem keepsAction_claim_iff {action : String} (is : params.values "action" = [action])
    (claims : action ∈ ["claim_user", "claim_device"]) : KeepsAction lib params ↔ HasNoBlankToken params := by
  have other : action ≠ "file_link" := by
    rintro rfl
    simp at claims
  rw [KeepsAction, is]
  simp only [List.mem_singleton, forall_eq, other, false_imp_iff, and_true, forall_prop_of_true claims]

theorem keepsAction_fileLink_iff (is : params.values "action" = ["file_link"]) :
    KeepsAction lib params ↔ HasShortNames lib params := by
  simp [KeepsAction, is]

theorem action_mem (invitationType : InvitationType) : invitationType.action ∈ ["claim_user", "claim_device"] := by
  cases invitationType <;> decide

/-- The token of an invitation is no blank text. -/
theorem keepsAction_invitation (documented : lib.Documented) {fields : InvitationFields}
    (parsed : (backendInvitationAddr lib).parse params path = .ok fields) : KeepsAction lib params := by
  obtain ⟨action, ⟨raw, token, read⟩, -⟩ := backendInvitationAddr_parse_iff.mp parsed
  rw [keepsAction_claim_iff action (action_mem _), HasNoBlankToken, token, List.head?_cons]
  intro blank
  rw [Option.some.inj blank, documented.uuid_blank] at read
  cases read

theorem claimUser_written_action (useSsl : Bool) (fields : ClaimFields) :
    ((backendOrganizationClaimUserAddr lib).params (noSslParams useSsl) fields).values "action" = ["claim_user"] := by
  simp [backendOrganizationClaimUserAddr, claimAddr_params_values, noSslParams_values, tokenParams_values]

theorem claimDevice_written_action (useSsl : Bool) (fields : ClaimFields) :
    ((backendOrganizationClaimDeviceAddr lib).params (noSslParams useSsl) fields).values "action" =
      ["claim_device"] := by
  simp [backendOrganizationClaimDeviceAddr, claimAddr_params_values, noSslParams_values, tokenParams_values]

theorem fileLink_written_action (useSsl : Bool) (fields : FileLinkFields) :
    ((backendOrganizationFileLinkAddr lib).params (noSslParams useSsl) fields).values "action" = ["file_link"] := by
  simp [backendOrganizationFileLinkAddr, OrganizationParamsFixture.toParams, noSslParams_values]

theorem invitation_written (lib : AddressLibrary) (useSsl : Bool) (fields : InvitationFields) :
    ((backendInvitationAddr lib).params (noSslParams useSsl) fields).values "action" = [fields.invitationType.action] ∧
      ((backendInvitationAddr lib).params (noSslParams useSsl) fields).values "rvk" = [] := by
  simp [backendInvitationAddr, noSslParams_values]

end Expectations

theorem reread_iff {kept : UrlParams → Prop} (documented : lib.Documented) (rereads : cls.Rereads kept)
    (keeps : ∀ {params path fields}, cls.parse params path = .ok fields → (KeepsAction lib params ↔ kept params))
    (accepted : Addr.fromUrl lib cls url = .ok addr) :
    Addr.fromUrl lib cls (addr.toUrl cls) = .ok addr ↔
      HasPlainAuthority lib url ∧ KeepsAction lib (urlParams lib url) := by
  obtain ⟨split, taken, _, _, _, _, read⟩ := Addr.fromUrl_eq_ok_iff.mp accepted
  rw [rereads.fromUrl_toUrl_iff documented accepted, read.urlParams_eq taken, keeps read.fields]

/-- The class that is found by trying reads back what it has read under the conditions of that class. -/
theorem fromUrl_toUrl_iff (documented : lib.Documented) (accepted : fromUrl lib url = .ok address) :
    fromUrl lib (address.toUrl lib) = .ok address ↔
      HasPlainAuthority lib url ∧ KeepsAction lib (urlParams lib url) := by
  rw [fromUrl_eq_ok_iff documented] at accepted ⊢
  cases address with
  | bootstrap addr =>
    exact reread_iff documented backendOrganizationBootstrapAddr_rereads
      (fun parsed => iff_of_true (keepsAction_bootstrap (bootstrap_action parsed)) trivial) accepted
  | claimUser addr =>
    obtain ⟨-, accepted⟩ := accepted
    have rereads := backendOrganizationClaimUserAddr_rereads documented
    rw [← reread_iff documented rereads
      (fun parsed => keepsAction_claim_iff (claimUser_action parsed).1 (by simp)) accepted]
    refine and_iff_right_of_imp fun reread => ?_
    refine not_accepts documented rereads (Addr.isValid_of_fromUrl documented accepted) reread
      fun path fields parsed => ?_
    have action := bootstrap_action parsed
    rw [claimUser_written_action] at action
    exact absurd action (by decide)
  | claimDevice addr =>
    obtain ⟨-, -, accepted⟩ := accepted
    have rereads := backendOrganizationClaimDeviceAddr_rereads documented
    have valid := Addr.isValid_of_fromUrl documented accepted
    rw [← reread_iff documented rereads (fun parsed => keepsAction_claim_iff (claimDevice_action parsed).1 (by simp))
      accepted]
    constructor
    · exact fun ⟨_, _, reread⟩ => reread
    · intro reread
      refine ⟨not_accepts documented rereads valid reread fun path fields parsed => ?_,
        not_accepts documented rereads valid reread fun path fields parsed => ?_, reread⟩
      · have action := bootstrap_action parsed
        rw [claimDevice_written_action] at action
        exact absurd action (by decide)
      · have action := (claimUser_action parsed).1
        rw [claimDevice_written_action] at action
        exact absurd action (by decide)
  | fileLink addr =>
    obtain ⟨-, -, -, accepted⟩ := accepted
    have rereads := backendOrganizationFileLinkAddr_rereads documented
    have valid := Addr.isValid_of_fromUrl documented accepted
    rw [← reread_iff documented rereads (fun parsed => keepsAction_fileLink_iff (fileLink_action parsed).1) accepted]
    constructor
    · exact fun ⟨_, _, _, reread⟩ => reread
    · intro reread
      refine ⟨not_accepts documented rereads valid reread fun path fields parsed => ?_,
        not_accepts documented rereads valid reread fun path fields parsed => ?_,
        not_accepts documented rereads valid reread fun path fields parsed => ?_, reread⟩
      · have action := bootstrap_action parsed
        rw [fileLink_written_action] at action
        exact absurd action (by decide)
      · have action := (claimUser_action parsed).1
        rw [fileLink_written_action] at action
        exact absurd action (by decide)
      · have action := (claimDevice_action parsed).1
        rw [fileLink_written_action] at action
        exact absurd action (by decide)
  | invitation addr =>
    obtain ⟨-, -, -, -, accepted⟩ := accepted
    have rereads := backendInvitationAddr_rereads documented
    have valid := Addr.isValid_of_fromUrl documented accepted
    obtain ⟨action, noRvk⟩ := invitation_written lib addr.useSsl addr.fields
    rw [← reread_iff documented rereads (fun parsed => iff_of_true (keepsAction_invitation documented parsed) trivial)
      accepted]
    constructor
    · exact fun ⟨_, _, _, _, reread⟩ => reread
    · intro reread
      refine ⟨not_accepts documented rereads valid reread fun path fields parsed => ?_,
        not_accepts documented rereads valid reread fun path fields parsed => (claimUser_action parsed).2 noRvk,
        not_accepts documented rereads valid reread fun path fields parsed => (claimDevice_action parsed).2 noRvk,
        not_accepts documented rereads valid reread fun path fields parsed => (fileLink_action parsed).2 noRvk, reread⟩
      have claims := action_mem addr.fields.invitationType
      rw [List.singleton_inj.mp (action.symm.trans (bootstrap_action parsed))] at claims
      exact absurd claims (by decide)

end BackendActionAddr

end Dispatch

/-- An address comes back from its URL if and only if the URL that it was read from has a host that needs no brackets
and a port other than 0. A claim must not have a blank token, and a link must lead through names that stay short. -/
theorem address_urls_round_trip_iff (lib : AddressLibrary) (documented : lib.Documented) :
    (∀ url addr, Addr.fromUrl lib backendAddr url = .ok addr →
      (Addr.fromUrl lib backendAddr (addr.toUrl backendAddr) = .ok addr ↔ HasPlainAuthority lib url)) ∧
    (∀ url addr, Addr.fromUrl lib (backendOrganizationAddr lib) url = .ok addr →
      (Addr.fromUrl lib (backendOrganizationAddr lib) (addr.toUrl (backendOrganizationAddr lib)) = .ok addr ↔
        HasPlainAuthority lib url)) ∧
    (∀ url addr, Addr.fromUrl lib (backendOrganizationBootstrapAddr lib) url = .ok addr →
      (Addr.fromUrl lib (backendOrganizationBootstrapAddr lib) (addr.toUrl (backendOrganizationBootstrapAddr lib)) =
        .ok addr ↔ HasPlainAuthority lib url)) ∧
    (∀ url addr, Addr.fromUrl lib (backendOrganizationClaimUserAddr lib) url = .ok addr →
      (Addr.fromUrl lib (backendOrganizationClaimUserAddr lib) (addr.toUrl (backendOrganizationClaimUserAddr lib)) =
        .ok addr ↔ HasPlainAuthority lib url ∧ HasNoBlankToken (urlParams lib url))) ∧
    (∀ url addr, Addr.fromUrl lib (backendOrganizationClaimDeviceAddr lib) url = .ok addr →
      (Addr.fromUrl lib (backendOrganizationClaimDeviceAddr lib) (addr.toUrl (backendOrganizationClaimDeviceAddr lib)) =
        .ok addr ↔ HasPlainAuthority lib url ∧ HasNoBlankToken (urlParams lib url))) ∧
    (∀ url addr, Addr.fromUrl lib (backendOrganizationFileLinkAddr lib) url = .ok addr →
      (Addr.fromUrl lib (backendOrganizationFileLinkAddr lib) (addr.toUrl (backendOrganizationFileLinkAddr lib)) =
        .ok addr ↔ HasPlainAuthority lib url ∧ HasShortNames lib (urlParams lib url))) ∧
    (∀ url addr, Addr.fromUrl lib (backendInvitationAddr lib) url = .ok addr →
      (Addr.fromUrl lib (backendInvitationAddr lib) (addr.toUrl (backendInvitationAddr lib)) = .ok addr ↔
        HasPlainAuthority lib url)) ∧
    ∀ url address, BackendActionAddr.fromUrl lib url = .ok address →
      (BackendActionAddr.fromUrl lib (address.toUrl lib) = .ok address ↔
        HasPlainAuthority lib url ∧ KeepsAction lib (urlParams lib url)) := by
  have plain {Fields : Type} {cls : AddrClass Fields} (rereads : cls.Rereads fun _ => True) (url : String)
      (addr : Addr Fields) (accepted : Addr.fromUrl lib cls url = .ok addr) :=
    (rereads.fromUrl_toUrl_iff documented accepted).trans (and_iff_left trivial)
  refine ⟨plain backendAddr_rereads, plain (backendOrganizationAddr_rereads documented),
    plain backendOrganizationBootstrapAddr_rereads, ?_, ?_, ?_, plain (backendInvitationAddr_rereads documented), ?_⟩
  · exact fun _ _ => (backendOrganizationClaimUserAddr_rereads documented).fromUrl_toUrl_iff documented
  · exact fun _ _ => (backendOrganizationClaimDeviceAddr_rereads documented).fromUrl_toUrl_iff documented
  · exact fun _ _ => (backendOrganizationFileLinkAddr_rereads documented).fromUrl_toUrl_iff documented
  · exact fun _ _ => BackendActionAddr.fromUrl_toUrl_iff documented

section Example

private def upperLetters : List Char := "ABCDEFGHIJKLMNOPQRSTUVWXYZ".toList

private def lowerLetter (char : Char) : Char := if char ∈ upperLetters then char.toLower else char

/-- The library as it is on ASCII texts, where keys are the numbers that their bytes encode. -/
private def asciiLibrary : AddressLibrary where
  toDecodingLibrary :=
    { plainLibrary with
      uuidOfText
        | .str text =>
          let digits := text.toList.filter (· ≠ '-')
          if digits.length = 32 then ((digits.mapM hexValue).map (Base32.ofDigits 16)).filter (· < 2 ^ 128) else none
        | _ => none
      verifyKey
        | .bytes bytes => if bytes.length = 32 then some ⟨Base32.ofDigits 256 (bytes.map UInt8.toNat)⟩ else none
        | _ => none }
  texts := ⟨List.map lowerLetter, id, fun _ => true⟩
  encodeKey key := (Base32.digits 256 32 key.id).map UInt8.ofNat

private theorem lowerLetter_cases (char : Char) : lowerLetter char = char ∨ lowerLetter char ∈ lowerLetters := by
  have letters : ∀ char ∈ upperLetters, char.toLower ∈ lowerLetters := by decide
  rw [lowerLetter]
  split
  · next upper => exact .inr (letters char upper)
  · exact .inl rfl

private theorem lowerLetter_of_mem : ∀ char ∈ lowerLetters, lowerLetter char = char := by decide

private theorem asciiTexts : asciiLibrary.texts.Unicode where
  lower_idempotent text := by
    refine (List.map_map ..).trans (List.map_congr_left fun char _ => ?_)
    rcases lowerLetter_cases char with same | lower
    · exact congrArg lowerLetter same
    · exact lowerLetter_of_mem _ lower
  mem_of_mem_lower := by
    intro text char member marked
    obtain ⟨before, inside, rfl⟩ := List.mem_map.mp member
    rcases lowerLetter_cases before with same | lower
    · rw [same]
      exact inside
    · exfalso
      have plain : ∀ char ∈ lowerLetters, char ∉ '[' :: ']' :: '%' :: unsafeCharacters ∧ char ∉ delimiters := by decide
      obtain ⟨noMark, noDelimiter⟩ := plain _ lower
      rcases marked with mark | ⟨delimiter, among, hidden⟩
      · exact noMark mark
      · exact noDelimiter (List.mem_singleton.mp hidden ▸ among)
  normalize_ascii _ _ := rfl
  mem_normalize_iff {text delimiter} _ :=
    ⟨fun member => ⟨delimiter, member, List.mem_singleton_self _⟩,
      fun ⟨_, member, same⟩ => List.mem_singleton.mp same ▸ member⟩

private theorem hex_digit : ∀ digit < 16, "0123456789abcdef".toList.getD digit '0' ≠ '-' ∧
    hexValue ("0123456789abcdef".toList.getD digit '0') = some digit := by
  decide

private theorem hex_clean (id : UUID) : ∀ char ∈ UUID.hex id, char ≠ '-' := by
  intro char member
  obtain ⟨digit, among, rfl⟩ := List.mem_map.mp member
  exact (hex_digit digit (Base32.lt_of_mem_digits (by decide) among)).1

/-- The dashes are what a text has more than the digits. -/
private theorem filter_text (id : UUID) : (UUID.text id).filter (· ≠ '-') = UUID.hex id := by
  have kept {piece : List Char} (part : piece ⊆ UUID.hex id) : piece.filter (· ≠ '-') = piece :=
    List.filter_eq_self.mpr fun char member => decide_eq_true (hex_clean id char (part member))
  have front (count : ℕ) := kept (List.take_subset count (UUID.hex id))
  have middle (skipped count : ℕ) :=
    kept (List.Subset.trans (List.take_subset count _) (List.drop_subset skipped (UUID.hex id)))
  have behind (skipped : ℕ) := kept (List.drop_subset skipped (UUID.hex id))
  have dash : ['-'].filter (· ≠ '-') = [] := rfl
  have join (skipped count : ℕ) :
      ((UUID.hex id).drop skipped).take count ++ (UUID.hex id).drop (skipped + count) = (UUID.hex id).drop skipped := by
    rw [← List.drop_drop, List.take_append_drop]
  simp only [UUID.text, List.intercalate, List.intersperse, List.flatten_cons, List.flatten_nil, List.append_nil,
    List.filter_append, front, middle, behind, dash, List.nil_append]
  rw [join 16 4, join 12 4, join 8 4, List.take_append_drop]

private theorem uuidOfText_eq {id : UUID} (small : id < 2 ^ 128) {text : String}
    (digits : text.toList.filter (· ≠ '-') = UUID.hex id) : asciiLibrary.uuidOfText (.str text) = some id := by
  have read : (UUID.hex id).mapM hexValue = some (Base32.digits 16 32 id) := by
    have small : ∀ digit ∈ Base32.digits 16 32 id, digit < 16 := fun _ => Base32.lt_of_mem_digits (by decide)
    rw [UUID.hex]
    generalize Base32.digits 16 32 id = written at small
    induction written with
    | nil => rfl
    | cons digit rest ih =>
      obtain ⟨here, there⟩ := List.forall_mem_cons.mp small
      rw [List.map_cons, List.mapM_cons, (hex_digit digit here).2, ih there]
      rfl
  have length : (UUID.hex id).length = 32 := by rw [UUID.hex, List.length_map, Base32.length_digits]
  have powers : (16 : ℕ) ^ 32 = 2 ^ 128 := by norm_num
  have number : Base32.ofDigits 16 (Base32.digits 16 32 id) = id := Base32.ofDigits_digits (powers ▸ small)
  simp only [asciiLibrary, digits, length, if_true, read, Option.map_some, number]
  exact if_pos (decide_eq_true small)

private theorem asciiLibrary_documented : asciiLibrary.Documented where
  unicode := asciiTexts
  lower_letters text letters :=
    (List.map_congr_left fun char member => lowerLetter_of_mem char (letters char member)).trans (List.map_id _)
  form := ⟨fun _ => rfl, fun _ kept => kept, fun _ _ => rfl⟩
  uuid_blank := rfl
  uuid_lt := by
    intro value id read
    simp only [asciiLibrary] at read
    split at read
    · simp only [Option.ite_none_right_eq_some, Option.filter_eq_some_iff] at read
      exact of_decide_eq_true read.2.2
    · cases read
  uuid_hex small := uuidOfText_eq small (by
    rw [String.toList_ofList, List.filter_eq_self]
    exact fun char member => decide_eq_true (hex_clean _ char member))
  uuid_text small := uuidOfText_eq small (by rw [String.toList_ofList, filter_text])
  encodeKey := by
    intro bytes key read
    simp only [asciiLibrary, Option.ite_none_right_eq_some, Option.some.injEq] at read ⊢
    obtain ⟨length, rfl⟩ := read
    have digits := Base32.digits_ofDigits (Base32.toNat_lt_of_mem bytes)
    rw [List.length_map, length] at digits
    rw [digits, List.map_map]
    exact (List.map_congr_left fun byte _ => UInt8.ofNat_toNat).trans (List.map_id _)

private def claimUrl : String :=
  "parsec://a.b/O?action=claim_user&user_id=J&token=&rvk=P25GRG3XPSZKBEKXYQFBOLERWQNEDY3AO43MVNZCLPXPKN63JRYQssss"

/-- An IPv6 literal is no host any more, the port 0 becomes the default port, and a blank token is missing. -/
theorem literal_host_not_read_back :
    (∃ addr, Addr.fromUrl asciiLibrary backendAddr "parsec://[::1]:4242" = .ok addr ∧
      addr.toUrl backendAddr = "parsec://::1:4242" ∧
      Addr.fromUrl asciiLibrary backendAddr "parsec://::1:4242" = .error (.value "Missing hostname")) ∧
    (∃ addr, Addr.fromUrl asciiLibrary backendAddr "parsec://a.b:0" = .ok addr ∧ addr.port = 0 ∧
      addr.toUrl backendAddr = "parsec://a.b" ∧
      ∃ again, Addr.fromUrl asciiLibrary backendAddr "parsec://a.b" = .ok again ∧ again.port = 443) ∧
    ∃ addr, Addr.fromUrl asciiLibrary (backendOrganizationClaimUserAddr asciiLibrary) claimUrl = .ok addr ∧
      addr.fields.token = some "" ∧
      Addr.fromUrl asciiLibrary (backendOrganizationClaimUserAddr asciiLibrary)
        (addr.toUrl (backendOrganizationClaimUserAddr asciiLibrary)) ≠ .ok addr := by
  refine ⟨⟨⟨"::1", 4242, true, ()⟩, by decide, by decide, by decide⟩,
    ⟨⟨"a.b", 0, true, ()⟩, by decide, rfl, by decide, ⟨"a.b", 443, true, ()⟩, by decide, rfl⟩, ?_⟩
  have read :
      (Addr.fromUrl asciiLibrary (backendOrganizationClaimUserAddr asciiLibrary) claimUrl).map (·.fields.token) =
      .ok (some "") := by decide +kernel
  obtain ⟨addr, accepted, token⟩ := Except.map_eq_ok_iff.mp read
  have rereads := backendOrganizationClaimUserAddr_rereads asciiLibrary_documented
  refine ⟨addr, accepted, token, fun reread => ?_⟩
  obtain ⟨split, taken, _, _, _, _, parts⟩ := Addr.fromUrl_eq_ok_iff.mp accepted
  obtain ⟨-, kept⟩ := (rereads.fromUrl_toUrl_iff asciiLibrary_documented accepted).mp reread
  rw [parts.urlParams_eq taken, (claimAddr_parse_iff.mp parts.fields).2.2.2.2] at kept
  exact kept token

private def bootstrapUrl : String := "parsec://a.b/O?action=bootstrap_organization&token=a%2Bb+c"

/-- An address with a port and without SSL, and one that bootstraps an organization with an encoded token. -/
theorem address_urls_round_trip_iff_bootstrap :
    (∃ addr, Addr.fromUrl asciiLibrary backendAddr "parsec://A.b:4242/?no_ssl=True" = .ok addr ∧
      Addr.fromUrl asciiLibrary backendAddr (addr.toUrl backendAddr) = .ok addr) ∧
    ∃ address, BackendActionAddr.fromUrl asciiLibrary bootstrapUrl = .ok address ∧
      BackendActionAddr.fromUrl asciiLibrary (address.toUrl asciiLibrary) = .ok address := by
  obtain ⟨plain, -, -, -, -, -, -, action⟩ := address_urls_round_trip_iff asciiLibrary asciiLibrary_documented
  have server :
      Addr.fromUrl asciiLibrary backendAddr "parsec://A.b:4242/?no_ssl=True" = .ok ⟨"a.b", 4242, false, ()⟩ := by
    decide +kernel
  have bootstrap : BackendActionAddr.fromUrl asciiLibrary bootstrapUrl =
      .ok (.bootstrap ⟨"a.b", 443, true, ⟨"O", "a+b c"⟩⟩) := by
    decide +kernel
  have keeps : (urlParams asciiLibrary bootstrapUrl).values "action" = ["bootstrap_organization"] := by decide +kernel
  exact ⟨⟨_, server, (plain _ _ server).mpr ⟨by decide +kernel, by decide +kernel⟩⟩,
    ⟨_, bootstrap, (action _ _ bootstrap).mpr
      ⟨⟨by decide +kernel, by decide +kernel⟩, BackendActionAddr.keepsAction_bootstrap keeps⟩⟩⟩

end Example

end Guardata
