import Guardata.Model.BackendAddr
import Guardata.Proofs.EntryPaths

/-! # Addresses that are read again

The URL of an address is taken apart into the parts that it was made of, as long as its host needs no brackets.
Then the classes look up what they have written.
-/

namespace Guardata

open PercentEncoding Url

/-- What is documented about the libraries that the addresses call. -/
structure AddressLibrary.Documented (lib : AddressLibrary) : Prop where
  unicode : lib.texts.Unicode
  lower_letters : ∀ text, (∀ char ∈ text, char ∈ lowerLetters) → lib.texts.lower text = text
  form : NormalForm lib.normalize
  uuid_blank : lib.uuidOfText (.str "") = none
  uuid_lt : ∀ {value id}, lib.uuidOfText value = some id → id < 2 ^ 128
  uuid_hex : ∀ {id : UUID}, id < 2 ^ 128 → lib.uuidOfText (.str (String.ofList (UUID.hex id))) = some id
  uuid_text : ∀ {id : UUID}, id < 2 ^ 128 → lib.uuidOfText (.str (String.ofList (UUID.text id))) = some id
  encodeKey : ∀ {bytes key}, lib.verifyKey (.bytes bytes) = some key → lib.encodeKey key = bytes

@[simp] theorem AddrError.orLibrary_eq_ok_iff {α : Type*} {result : Option α} {value : α} :
    AddrError.orLibrary result = .ok value ↔ result = some value := by
  cases result <;> simp [AddrError.orLibrary]

variable {lib : AddressLibrary} {Fields : Type} {params : UrlParams}

section Params

@[simp] theorem UrlParams.values_nil (name : String) : UrlParams.values [] name = [] := rfl

@[simp] theorem UrlParams.values_cons (other value : String) (params : UrlParams) (name : String) :
    values ((other, value) :: params) name =
      if other = name then value :: params.values name else params.values name := by
  rw [values, List.filter_cons]
  split
  · next same => rw [if_pos (of_decide_eq_true same), List.map_cons, ← values]
  · next different => rw [if_neg fun same => different (decide_eq_true same), ← values]

@[simp] theorem UrlParams.values_append (first second : UrlParams) (name : String) :
    values (first ++ second) name = first.values name ++ second.values name := by
  rw [values, List.filter_append, List.map_append, ← values, ← values]

theorem noSslParams_values {name : String} (other : name ≠ "no_ssl") (useSsl : Bool) :
    (noSslParams useSsl).values name = [] := by
  cases useSsl with
  | true => rfl
  | false => simp [noSslParams, other.symm]

theorem UrlParams.mandatory_eq_ok_iff {name value : String} :
    params.mandatory name = .ok value ↔ params.values name = [value] := by
  rw [mandatory]
  split
  · next found => rw [found, Except.ok.injEq, List.singleton_inj]
  · next other =>
    simp only [reduceCtorEq, false_iff]
    exact other value

theorem UrlParams.ofQuery_urlencode (params : UrlParams) : ofQuery (urlencode params.characters) = .ok params := by
  rcases eq_or_ne params [] with rfl | nonempty
  · rfl
  · have read : parseQsl (urlencode params.characters) = some params.characters :=
      parseQsl_urlencode (by simpa [characters] using nonempty)
    have written : urlencode params.characters ≠ [] := by
      intro none
      rw [none] at read
      cases read
    have back : params.characters.map (fun field => (String.ofList field.1, String.ofList field.2)) = params := by
      rw [characters, List.map_map]
      refine (List.map_congr_left fun param _ => ?_).trans (List.map_id _)
      simp
    rw [ofQuery, if_neg written, read]
    exact congrArg Except.ok back

/-- A verify key is read as it was written. -/
theorem importRootVerifyKey_exportRootVerifyKey (documented : lib.Documented) {raw : String} {key : VerifyKey}
    (accepted : importRootVerifyKey lib raw = some key) :
    importRootVerifyKey lib (exportRootVerifyKey lib key) = some key := by
  simp only [importRootVerifyKey, Option.bind_eq_bind, Option.bind_eq_some_iff] at accepted
  obtain ⟨bytes, -, is⟩ := accepted
  have written := documented.encodeKey is
  have back : ((Base32.b32encode bytes).map fun char => if char = '=' then 's' else char).map
      (fun char => if char = 's' then '=' else char) = Base32.b32encode bytes := by
    have each : ∀ char ∈ '=' :: Base32.alphabet,
        (if (if char = '=' then 's' else char) = 's' then '=' else if char = '=' then 's' else char) = char := by decide
    rw [List.map_map]
    exact (List.map_congr_left fun char member => each char (Base32.mem_b32encode member)).trans (List.map_id _)
  rw [importRootVerifyKey, exportRootVerifyKey, String.toList_ofList, written, back, Base32.b32decode_b32encode]
  exact is

theorem noSsl_values (useSsl : Bool) (documented : lib.Documented)
    (same : params.values "no_ssl" = (noSslParams useSsl).values "no_ssl") : parseNoSsl lib params = .ok useSsl := by
  have letters : ∀ text ∈ ["false".toList, "true".toList], lib.texts.lower text = text := by
    intro text member
    have all : ∀ text ∈ ["false".toList, "true".toList], ∀ char ∈ text, char ∈ lowerLetters := by decide
    exact documented.lower_letters text (all text member)
  have isFalse := letters "false".toList (by simp)
  have isTrue := letters "true".toList (by simp)
  rw [parseNoSsl, same]
  cases useSsl with
  | true => exact if_pos isFalse
  | false =>
    have noFalse : ¬ lib.texts.lower "true".toList = "false".toList := by rw [isTrue]; decide
    exact (if_neg noFalse).trans (if_pos isTrue)

end Params

section Urls

/-- The path that is read where `path` was written. -/
def readPath (path : String) : String := if path = "" then "" else "/" ++ path

theorem unquotePlus_absolutePath {errors : Errors} (path : String) :
    unquotePlus errors (absolutePath (quotePlus path.toList)) = some (readPath path).toList := by
  by_cases none : path = ""
  · subst none
    rfl
  · have text : path.toList ≠ [] := by simpa using none
    have relative : (quotePlus path.toList).head? ≠ some '/' := fun slash =>
      absurd (mem_quotedCharacters_of_mem_quotePlus (List.mem_of_head? slash)) (by decide)
    rw [absolutePath, if_neg (not_or.mpr ⟨quotePlus_eq_nil_iff.not.mpr text, relative⟩), readPath, if_neg none]
    have plain : ∀ char ∈ ['/'], isAscii char = true ∧ char ≠ '%' ∧ char ≠ '+' := by decide
    rw [← List.singleton_append, unquotePlus_append_quotePlus plain]
    simp

/-- The parts that the URL of an address is made of. -/
def Addr.parts (cls : AddrClass Fields) (addr : Addr Fields) : SplitResult :=
  ⟨parsecScheme, writeNetloc addr.hostname.toList ((parsePort (some addr.port) addr.useSsl).2.filter (· ≠ 0)),
    quotePlus (cls.path addr.fields).toList,
    urlencode (cls.params (noSslParams addr.useSsl) addr.fields).characters, []⟩

/-- The parts that its URL is taken apart into. -/
def Addr.rereadParts (cls : AddrClass Fields) (addr : Addr Fields) : SplitResult :=
  { addr.parts cls with path := absolutePath (addr.parts cls).path }

variable {cls : AddrClass Fields} {addr : Addr Fields}

theorem parsecScheme_spec : parsecScheme ≠ [] ∧ ∀ char ∈ parsecScheme, char ∈ lowerLetters := by decide

theorem Addr.distinct_parts (host : IsHost lib.texts addr.hostname.toList) : (addr.parts cls).Distinct where
  scheme := parsecScheme_spec
  netloc := by
    refine ⟨fun none => host.nonempty (List.append_eq_nil_iff.mp none).1, fun char member => ?_⟩
    have other : ∀ char ∈ '/' :: '?' :: '#' :: '@' :: unsafeCharacters, char ≠ ':' ∧ char.isDigit = false := by decide
    have clean : char ∉ '/' :: '?' :: '#' :: '@' :: unsafeCharacters := fun bad =>
      host.clean char ((mem_writeNetloc_iff (other char bad).1 (other char bad).2).mp member) bad
    simp only [List.mem_cons, not_or, List.not_mem_nil, or_false] at clean ⊢
    tauto
  path := by
    have all : ∀ char ∈ quotedCharacters, char ∉ ['?', '#'] ∧ char ∉ unsafeCharacters := by decide
    exact fun char member => all char (mem_quotedCharacters_of_mem_quotePlus member)
  query := by
    have all : ∀ char ∈ '&' :: '=' :: quotedCharacters, char ∉ '#' :: unsafeCharacters := by decide
    exact fun char member => all char (mem_urlencode member)
  fragment := rfl

/-- What `fromUrl` has read of a URL when it returns an address. -/
structure Addr.IsRead (lib : AddressLibrary) (cls : AddrClass Fields) (split : SplitResult) (host : List Char)
    (params : UrlParams) (path : List Char) (port : Option ℕ) (addr : Addr Fields) : Prop where
  scheme : split.scheme = parsecScheme
  hasHost : split.hostname lib.texts = some host
  nonempty : host ≠ []
  hasParams : UrlParams.ofQuery split.query = .ok params
  hasPath : unquotePlus .replace split.path = some path
  useSsl : parseNoSsl lib params = .ok addr.useSsl
  fields : cls.parse params (String.ofList path) = .ok addr.fields
  hasPort : split.port = some port
  noScheme : "parsec://".toList.isPrefixOf host = false
  hostname : addr.hostname = String.ofList host
  customPort : addr.port = (parsePort port addr.useSsl).1

theorem Addr.fromUrl_eq_ok_iff {url : String} : fromUrl lib cls url = .ok addr ↔
    ∃ split, urlsplit lib.texts url.toList = some split ∧
      ∃ host params path port, IsRead lib cls split host params path port addr := by
  simp only [fromUrl, Except.bind_eq_ok_iff, AddrError.orLibrary_eq_ok_iff, Except.require_eq_ok_iff,
    Except.pure_eq_ok_iff, exists_const]
  constructor
  · rintro ⟨split, taken, scheme, some, params, query, path, readPath, useSsl, noSsl, fields, parsed, port, readPort,
      noScheme, rfl⟩
    cases found : split.hostname lib.texts with
    | none => exact absurd (by rw [found]; rfl) some
    | some host =>
      rw [found, Option.getD_some] at some noScheme
      exact ⟨split, taken, host, params, path, port, scheme, found, some, query, readPath, noSsl, parsed, readPort,
        eq_false_of_ne_true noScheme, by rw [Option.getD_some], rfl⟩
  · rintro ⟨split, taken, host, params, path, port, read⟩
    refine ⟨split, taken, read.scheme, ?_, params, read.hasParams, path, read.hasPath, addr.useSsl, read.useSsl,
      addr.fields, read.fields, port, read.hasPort, ?_, ?_⟩
    · rw [read.hasHost]
      exact read.nonempty
    · rw [read.hasHost, Option.getD_some, read.noScheme]
      exact Bool.false_ne_true
    · rw [read.hasHost, Option.getD_some, ← read.hostname, ← read.customPort]

theorem parsePort_fst (port : Option ℕ) (useSsl : Bool) :
    (parsePort port useSsl).1 = port.getD (defaultPort useSsl) := by
  cases port with
  | none => rfl
  | some port =>
    rw [parsePort, Option.getD_some]
    split
    · next same => exact same.symm
    · rfl

theorem parsePort_some_snd (port : ℕ) (useSsl : Bool) :
    (parsePort (some port) useSsl).2 = if port = defaultPort useSsl then none else some port := by
  rw [parsePort]
  split <;> rfl

/-- The port that is read of the authority of an address. -/
def Addr.writtenPort (addr : Addr Fields) : Option ℕ :=
  (parsePort (some addr.port) addr.useSsl).2.filter (· ≠ 0)

theorem Addr.writtenPort_eq (addr : Addr Fields) :
    (parsePort addr.writtenPort addr.useSsl).1 = addr.port ↔ addr.port ≠ 0 := by
  have default : defaultPort addr.useSsl ≠ 0 := by rw [defaultPort]; split <;> decide
  rw [parsePort_fst, writtenPort, parsePort_some_snd]
  by_cases same : addr.port = defaultPort addr.useSsl
  · rw [if_pos same, Option.filter_none, Option.getD_none, same]
    exact iff_of_true rfl default
  · rw [if_neg same, Option.filter_some]
    by_cases zero : addr.port = 0
    · simp [zero, default]
    · simp [zero]

/-- Of an address that was read, the host and the port are well formed. -/
structure Addr.IsValid (lib : AddressLibrary) (addr : Addr Fields) : Prop where
  host : IsHost lib.texts addr.hostname.toList
  port : addr.port ≤ 65535

variable {split : SplitResult} {host path : List Char} {port : Option ℕ}

theorem Addr.IsRead.isValid (documented : lib.Documented)
    {url : List Char} (taken : urlsplit lib.texts url = some split)
    (read : IsRead lib cls split host params path port addr) : addr.IsValid lib where
  host := by
    rw [read.hostname, String.toList_ofList]
    exact isHost_of_urlsplit documented.unicode taken read.hasHost read.nonempty
  port := by
    rw [read.customPort, parsePort_fst]
    cases port with
    | none =>
      rw [Option.getD_none, defaultPort]
      split <;> decide
    | some number => exact SplitResult.port_le read.hasPort

/-- No part of a host must be put into brackets. -/
def Addr.NeedsNoBrackets (addr : Addr Fields) : Prop := ∀ char ∈ [':', '[', ']'], char ∉ addr.hostname.toList

variable {Fields' : Type} {cls' : AddrClass Fields'} {addr' : Addr Fields'}

theorem Addr.IsValid.urlsplit_toUrl (documented : lib.Documented) (valid : addr.IsValid lib) (cls : AddrClass Fields) :
    urlsplit lib.texts (addr.toUrl cls).toList =
      if checkBrackets lib.texts (addr.rereadParts cls).netloc then some (addr.rereadParts cls) else none := by
  have checked : checkNetloc lib.texts (addr.parts cls).netloc = true :=
    valid.host.checkNetloc_writeNetloc documented.unicode
  have whole : (addr.toUrl cls).toList = urlunsplit (addr.parts cls) := String.toList_ofList ..
  rw [whole, urlsplit_urlunsplit (distinct_parts valid.host), checked]
  simp only [and_true]
  rfl

/-- A host that is read again needs no brackets, whichever class reads it. -/
theorem Addr.IsValid.needsNoBrackets (documented : lib.Documented) (valid : addr.IsValid lib)
    (reread : fromUrl lib cls' (addr.toUrl cls) = .ok addr') (same : addr'.hostname = addr.hostname) :
    addr.NeedsNoBrackets := by
  obtain ⟨split, taken, host, params, path, port, read⟩ := fromUrl_eq_ok_iff.mp reread
  rw [valid.urlsplit_toUrl documented, Option.ite_none_right_eq_some] at taken
  obtain ⟨brackets, taken⟩ := taken
  obtain rfl := Option.some.inj taken
  have is : host = addr.hostname.toList := by rw [← same, read.hostname, String.toList_ofList]
  exact (valid.host.reads_iff documented.unicode rfl).mp ⟨brackets, is ▸ read.hasHost⟩

/-- The URL of an address whose host needs no brackets is read as it was written. -/
theorem Addr.IsValid.fromUrl_toUrl (documented : lib.Documented) (valid : addr.IsValid lib)
    (plain : addr.NeedsNoBrackets)
    (noSsl : (cls.params (noSslParams addr.useSsl) addr.fields).values "no_ssl" =
      (noSslParams addr.useSsl).values "no_ssl") :
    fromUrl lib cls' (addr.toUrl cls) =
      (cls'.parse (cls.params (noSslParams addr.useSsl) addr.fields) (readPath (cls.path addr.fields))).map
        fun fields => ⟨addr.hostname, (parsePort addr.writtenPort addr.useSsl).1, addr.useSsl, fields⟩ := by
  have written : (addr.rereadParts cls).netloc = writeNetloc addr.hostname.toList addr.writtenPort := rfl
  obtain ⟨brackets, host⟩ := (valid.host.reads_iff documented.unicode written).mpr plain
  have noAt : '@' ∉ addr.hostname.toList := fun member => valid.host.clean _ member (by simp)
  have small : ∀ number ∈ addr.writtenPort, number ≤ 65535 := by
    intro number custom
    rw [writtenPort, parsePort_some_snd] at custom
    split at custom
    · cases custom
    · rw [Option.filter_some] at custom
      split at custom
      · cases custom
        exact valid.port
      · cases custom
  have port : (addr.rereadParts cls).port = some addr.writtenPort :=
    port_of_hostinfo (hostinfo_writeNetloc (by simpa [noAt, NeedsNoBrackets] using plain) written) small
  have noScheme : ¬ "parsec://".toList.isPrefixOf addr.hostname.toList = true := fun front =>
    absurd ((List.isPrefixOf_iff_prefix.mp front).subset (show '/' ∈ "parsec://".toList by decide))
      fun slash => valid.host.clean _ slash (by simp)
  have taken := valid.urlsplit_toUrl documented cls
  rw [if_pos brackets] at taken
  have query :
      UrlParams.ofQuery (addr.rereadParts cls).query = .ok (cls.params (noSslParams addr.useSsl) addr.fields) :=
    UrlParams.ofQuery_urlencode _
  have path : unquotePlus .replace (addr.rereadParts cls).path = some (readPath (cls.path addr.fields)).toList :=
    unquotePlus_absolutePath _
  have scheme : (addr.rereadParts cls).scheme = parsecScheme := rfl
  have useSsl := noSsl_values addr.useSsl documented noSsl
  simp only [fromUrl, taken, AddrError.orLibrary, Option.elim_some, Except.ok_bind]
  rw [Except.require_bind scheme, host, Option.getD_some, Except.require_bind valid.host.nonempty, query,
    Except.ok_bind, path, Option.elim_some, Except.ok_bind, useSsl, Except.ok_bind, String.ofList_toList, port,
    Option.elim_some]
  cases cls'.parse (cls.params (noSslParams addr.useSsl) addr.fields) (readPath (cls.path addr.fields)) with
  | error err => rfl
  | ok fields =>
    rw [Except.ok_bind, Except.ok_bind, Except.require_bind noScheme, String.ofList_toList]
    rfl

end Urls

section Assertion

variable {cls : AddrClass Fields}

theorem AddrError.orLibrary_ne_assertion {α : Type*} (result : Option α) : orLibrary result ≠ .error .assertion := by
  cases result <;> exact nofun

theorem UrlParams.mandatory_ne_assertion (name : String) : params.mandatory name ≠ .error .assertion := by
  rw [mandatory]
  split <;> exact nofun

theorem UrlParams.ofQuery_ne_assertion (query : List Char) : ofQuery query ≠ .error .assertion := by
  rw [ofQuery]
  split
  · exact nofun
  · exact Except.bind_ne_error (AddrError.orLibrary_ne_assertion _) fun _ => Except.pure_ne_error

theorem parseNoSsl_ne_assertion (params : UrlParams) : parseNoSsl lib params ≠ .error .assertion := by
  have each (value : String) : useSslOf lib value ≠ .error .assertion := by
    rw [useSslOf]
    split
    · exact nofun
    · split <;> exact nofun
  rw [parseNoSsl]
  split
  · exact each "false"
  · exact each _
  · exact nofun

/-- The assertion of the constructor cannot fail: the host of a URL has no slash. -/
theorem Addr.fromUrl_ne_assertion (documented : lib.Documented)
    (never : ∀ params path, cls.parse params path ≠ .error .assertion) (url : String) :
    fromUrl lib cls url ≠ .error .assertion := by
  intro raised
  simp only [fromUrl, Except.bind_eq_error_iff, Except.require_eq_error_iff, Except.require_eq_ok_iff,
    AddrError.orLibrary_eq_ok_iff, AddrError.orLibrary_ne_assertion, UrlParams.ofQuery_ne_assertion,
    parseNoSsl_ne_assertion, never, reduceCtorEq, and_false, false_or, exists_const, pure, Except.pure, or_false,
    and_true, not_not] at raised
  obtain ⟨split, taken, -, some, _, -, _, -, _, -, _, -, _, -, front⟩ := raised
  cases found : split.hostname lib.texts with
  | none => exact some (by rw [found]; rfl)
  | some host =>
    rw [found, Option.getD_some] at some front
    have clean := (isHost_of_urlsplit documented.unicode taken found some).clean
    have slash := (List.isPrefixOf_iff_prefix.mp front).subset (show '/' ∈ "parsec://".toList by decide)
    exact clean _ slash (by simp)

end Assertion

section Classes

/-- The parameters and the path that a class writes are read as the fields that were there, if the parameters that
these were read from were kept. -/
structure AddrClass.Rereads (cls : AddrClass Fields) (kept : UrlParams → Prop) : Prop where
  noSsl : ∀ useSsl fields,
    (cls.params (noSslParams useSsl) fields).values "no_ssl" = (noSslParams useSsl).values "no_ssl"
  parse_iff : ∀ {params path fields}, cls.parse params path = .ok fields → ∀ useSsl,
    (cls.parse (cls.params (noSslParams useSsl) fields) (readPath (cls.path fields)) = .ok fields ↔ kept params)
  never : ∀ params path, cls.parse params path ≠ .error .assertion

variable {path : String}

theorem readPath_drop (path : String) : String.ofList ((readPath path).toList.drop 1) = path := by
  rw [readPath]
  split
  · next none => rw [none]; rfl
  · simp

theorem parseOrganizationPath_readPath {organizationId : OrganizationID}
    (accepted : parseOrganizationPath lib path = .ok organizationId) :
    parseOrganizationPath lib (readPath organizationId) = .ok organizationId := by
  rw [parseOrganizationPath, Except.mapError_eq_ok_iff, OrganizationID.new, checkedText_eq_ok_iff] at accepted ⊢
  obtain ⟨valid, rfl⟩ := accepted
  rw [readPath_drop]
  exact ⟨valid, rfl⟩

theorem parseOrganizationPath_ne_assertion (path : String) : parseOrganizationPath lib path ≠ .error .assertion := by
  rw [parseOrganizationPath, OrganizationID.new, checkedText, Except.mapError_bind, Except.mapError_require]
  have other : AddrError.ofText (.value "Invalid organization ID") ≠ .assertion := by decide
  exact Except.bind_ne_error (Except.require_ne_error other) fun _ => Except.pure_ne_error

theorem OrganizationParamsFixture.parseRvk_ne_assertion (params : UrlParams) :
    parseRvk lib params ≠ .error .assertion := by
  apply Except.bind_ne_error (UrlParams.mandatory_ne_assertion _)
  intro value
  cases importRootVerifyKey lib value <;> exact nofun

theorem expectAction_ne_assertion (params : UrlParams) (action : String) :
    expectAction params action ≠ .error .assertion :=
  Except.bind_ne_error (UrlParams.mandatory_ne_assertion _) fun _ => Except.require_ne_error nofun

theorem OrganizationParamsFixture.parseRvk_eq_ok_iff {key : VerifyKey} :
    parseRvk lib params = .ok key ↔ ∃ raw, params.values "rvk" = [raw] ∧ importRootVerifyKey lib raw = some key := by
  simp only [parseRvk, Except.bind_eq_ok_iff, UrlParams.mandatory_eq_ok_iff, Option.elim_eq_ok_iff]

theorem OrganizationParamsFixture.parseRvk_toParams (documented : lib.Documented) {key : VerifyKey}
    (accepted : parseRvk lib params = .ok key) {written : UrlParams}
    (is : written.values "rvk" = [exportRootVerifyKey lib key]) : parseRvk lib written = .ok key := by
  obtain ⟨raw, -, imported⟩ := parseRvk_eq_ok_iff.mp accepted
  exact parseRvk_eq_ok_iff.mpr ⟨_, is, importRootVerifyKey_exportRootVerifyKey documented imported⟩

theorem expectAction_eq_ok_iff {action : String} {done : Unit} :
    expectAction params action = .ok done ↔ params.values "action" = [action] := by
  simp only [expectAction, Except.bind_eq_ok_iff, UrlParams.mandatory_eq_ok_iff, Except.require_eq_ok_iff]
  constructor
  · rintro ⟨value, is, rfl⟩
    exact is
  · exact fun is => ⟨action, is, rfl⟩

theorem backendAddr_rereads : backendAddr.Rereads fun _ => True where
  noSsl _ _ := rfl
  parse_iff _ _ := iff_of_true rfl trivial
  never _ _ := Except.require_ne_error nofun

theorem backendOrganizationAddr_rereads (documented : lib.Documented) :
    (backendOrganizationAddr lib).Rereads fun _ => True where
  noSsl useSsl fields := by
    simp [backendOrganizationAddr, OrganizationParamsFixture.toParams]
  parse_iff accepted useSsl := by
    simp only [backendOrganizationAddr, Except.bind_eq_ok_iff, Except.pure_eq_ok_iff] at accepted ⊢
    obtain ⟨key, parsed, organizationId, read, rfl⟩ := accepted
    refine iff_of_true ⟨key, ?_, organizationId, parseOrganizationPath_readPath read, rfl⟩ trivial
    apply OrganizationParamsFixture.parseRvk_toParams documented parsed
    simp [OrganizationParamsFixture.toParams, noSslParams_values]
  never _ _ := by
    apply Except.bind_ne_error (OrganizationParamsFixture.parseRvk_ne_assertion _)
    exact fun _ => Except.bind_ne_error (parseOrganizationPath_ne_assertion _) fun _ => Except.pure_ne_error

theorem backendOrganizationBootstrapAddr_rereads :
    (backendOrganizationBootstrapAddr lib).Rereads fun _ => True where
  noSsl useSsl fields := by simp [backendOrganizationBootstrapAddr]
  parse_iff accepted useSsl := by
    simp only [backendOrganizationBootstrapAddr, Except.bind_eq_ok_iff, Except.pure_eq_ok_iff,
      expectAction_eq_ok_iff, UrlParams.mandatory_eq_ok_iff, Except.require_eq_ok_iff, exists_const] at accepted ⊢
    obtain ⟨-, token, -, some, organizationId, read, rfl⟩ := accepted
    refine iff_of_true ⟨?_, token, ?_, some, organizationId, parseOrganizationPath_readPath read, rfl⟩ trivial
    · simp [noSslParams_values]
    · simp [noSslParams_values]
  never _ _ := by
    apply Except.bind_ne_error (expectAction_ne_assertion _ _)
    refine fun _ => Except.bind_ne_error (UrlParams.mandatory_ne_assertion _) fun _ => ?_
    refine Except.bind_ne_error (Except.require_ne_error (by decide)) fun _ => ?_
    exact Except.bind_ne_error (parseOrganizationPath_ne_assertion _) fun _ => Except.pure_ne_error

theorem tokenParams_values {name : String} (other : name ≠ "token") (token : Option String) :
    (tokenParams token).values name = [] := by
  cases token with
  | none => rfl
  | some token =>
    rw [tokenParams]
    split
    · rfl
    · simp [other.symm]

theorem tokenParams_head_iff (token : Option String) :
    ((tokenParams token).values "token").head? = token ↔ token ≠ some "" := by
  cases token with
  | none => exact iff_of_true rfl nofun
  | some token =>
    rw [tokenParams]
    split
    · next blank => simp [blank]
    · next blank => simp [blank]

section Claim

variable {action idName : String} {parseId : String → Except TextError String}

theorem claimAddr_parse_iff {fields : ClaimFields} :
    (claimAddr lib action idName parseId).parse params path = .ok fields ↔
      OrganizationParamsFixture.parseRvk lib params = .ok fields.organization.rootVerifyKey ∧
      params.values "action" = [action] ∧
      (∃ raw, params.values idName = [raw] ∧ parseId raw = .ok fields.id) ∧
      parseOrganizationPath lib path = .ok fields.organization.organizationId ∧
      (params.values "token").head? = fields.token := by
  simp only [claimAddr, Except.bind_eq_ok_iff, Except.pure_eq_ok_iff, expectAction_eq_ok_iff,
    UrlParams.mandatory_eq_ok_iff, Except.mapError_eq_ok_iff, exists_const]
  constructor
  · rintro ⟨key, rvk, actions, raw, ids, id, parsed, organizationId, read, rfl⟩
    exact ⟨rvk, actions, ⟨raw, ids, parsed⟩, read, rfl⟩
  · rintro ⟨rvk, actions, ⟨raw, ids, parsed⟩, read, tokens⟩
    exact ⟨_, rvk, actions, raw, ids, _, parsed, _, read, by rw [tokens]⟩

theorem claimAddr_params_values (useSsl : Bool) (fields : ClaimFields) (name : String) :
    ((claimAddr lib action idName parseId).params (noSslParams useSsl) fields).values name =
      UrlParams.values [("action", action), (idName, fields.id)] name ++ (tokenParams fields.token).values name ++
        ((noSslParams useSsl).values name ++
          UrlParams.values [("rvk", exportRootVerifyKey lib fields.organization.rootVerifyKey)] name) := by
  rw [← UrlParams.values_append, ← UrlParams.values_append, ← UrlParams.values_append]
  rfl

/-- A claim is read as it was written if its token is not blank. -/
theorem claimAddr_rereads (documented : lib.Documented) (other : idName ∉ ["action", "token", "no_ssl", "rvk"])
    (parsesId : ∀ {raw id}, parseId raw = .ok id → parseId id = .ok id) :
    (claimAddr lib action idName parseId).Rereads fun params => (params.values "token").head? ≠ some "" where
  noSsl useSsl fields := by
    simp only [List.mem_cons, List.not_mem_nil, or_false, not_or] at other
    simp [claimAddr_params_values, tokenParams_values, other]
  parse_iff := by
    intro params path fields accepted useSsl
    simp only [List.mem_cons, List.not_mem_nil, or_false, not_or] at other
    obtain ⟨rvk, -, ⟨raw, -, parsed⟩, read, token⟩ := claimAddr_parse_iff.mp accepted
    have written : ((claimAddr lib action idName parseId).params (noSslParams useSsl) fields).values "token" =
        (tokenParams fields.token).values "token" := by
      simp [claimAddr_params_values, noSslParams_values, other]
    rw [token, claimAddr_parse_iff, ← tokenParams_head_iff, written]
    constructor
    · exact fun ⟨_, _, _, _, tokens⟩ => tokens
    · intro same
      refine ⟨OrganizationParamsFixture.parseRvk_toParams documented rvk ?_, ?_, ⟨_, ?_, parsesId parsed⟩,
        parseOrganizationPath_readPath read, same⟩
      · simp [claimAddr_params_values, noSslParams_values, tokenParams_values, other]
      · simp [claimAddr_params_values, noSslParams_values, tokenParams_values, other]
      · simp [claimAddr_params_values, noSslParams_values, tokenParams_values, other, Ne.symm other.1,
          Ne.symm other.2.2.2]

  never params path := by
    apply Except.bind_ne_error (OrganizationParamsFixture.parseRvk_ne_assertion _)
    refine fun _ => Except.bind_ne_error (expectAction_ne_assertion _ _) fun _ => ?_
    refine Except.bind_ne_error (UrlParams.mandatory_ne_assertion _) fun raw => ?_
    apply Except.bind_ne_error
    · cases parseId raw <;> exact nofun
    · exact fun _ => Except.bind_ne_error (parseOrganizationPath_ne_assertion _) fun _ => Except.pure_ne_error

end Claim

theorem backendOrganizationClaimUserAddr_rereads (documented : lib.Documented) :
    (backendOrganizationClaimUserAddr lib).Rereads fun params => (params.values "token").head? ≠ some "" := by
  apply claimAddr_rereads documented (by decide)
  intro raw id accepted
  rw [UserID.new, checkedText_eq_ok_iff] at accepted ⊢
  obtain ⟨valid, rfl⟩ := accepted
  exact ⟨valid, rfl⟩

theorem backendOrganizationClaimDeviceAddr_rereads (documented : lib.Documented) :
    (backendOrganizationClaimDeviceAddr lib).Rereads fun params => (params.values "token").head? ≠ some "" := by
  apply claimAddr_rereads documented (by decide)
  intro raw id accepted
  rw [DeviceIDText.new, checkedText_eq_ok_iff] at accepted ⊢
  obtain ⟨valid, rfl⟩ := accepted
  exact ⟨valid, rfl⟩

section FileLink

theorem backendOrganizationFileLinkAddr_parse_iff {fields : FileLinkFields} :
    (backendOrganizationFileLinkAddr lib).parse params path = .ok fields ↔
      OrganizationParamsFixture.parseRvk lib params = .ok fields.organization.rootVerifyKey ∧
      params.values "action" = ["file_link"] ∧
      (∃ raw, params.values "workspace_id" = [raw] ∧ lib.uuidOfText (.str raw) = some fields.workspaceId) ∧
      (∃ raw, params.values "path" = [raw] ∧ FsPath.parse lib.normalize raw = .ok fields.path) ∧
      parseOrganizationPath lib path = .ok fields.organization.organizationId := by
  simp only [backendOrganizationFileLinkAddr, Except.bind_eq_ok_iff, Except.pure_eq_ok_iff, expectAction_eq_ok_iff,
    UrlParams.mandatory_eq_ok_iff, Except.mapError_eq_ok_iff, Option.elim_eq_ok_iff, exists_const]
  constructor
  · rintro ⟨key, rvk, actions, rawId, ids, id, parsed, rawPath, paths, linked, parsedPath, organizationId, read, rfl⟩
    exact ⟨rvk, actions, ⟨rawId, ids, parsed⟩, ⟨rawPath, paths, parsedPath⟩, read⟩
  · rintro ⟨rvk, actions, ⟨rawId, ids, parsed⟩, ⟨rawPath, paths, parsedPath⟩, read⟩
    exact ⟨_, rvk, actions, rawId, ids, _, parsed, rawPath, paths, _, parsedPath, _, read, rfl⟩

/-- The names of the path that a link leads to are short enough to be looked at again. -/
def HasShortNames (lib : AddressLibrary) (params : UrlParams) : Prop :=
  ∀ raw ∈ params.values "path", ∀ path, FsPath.parse lib.normalize raw = .ok path →
    ∀ name ∈ path, name.utf8ByteSize < 256

theorem backendOrganizationFileLinkAddr_rereads (documented : lib.Documented) :
    (backendOrganizationFileLinkAddr lib).Rereads (HasShortNames lib) where
  noSsl useSsl fields := by
    simp [backendOrganizationFileLinkAddr, OrganizationParamsFixture.toParams]
  parse_iff := by
    intro params path fields accepted useSsl
    obtain ⟨rvk, -, ⟨rawId, -, parsed⟩, ⟨rawPath, paths, parsedPath⟩, read⟩ :=
      backendOrganizationFileLinkAddr_parse_iff.mp accepted
    have kept : HasShortNames lib params ↔ FsPath.parse lib.normalize (FsPath.text fields.path) = .ok fields.path := by
      rw [FsPath.parse_text_iff documented.form (FsPath.isValid_of_parse parsedPath), and_iff_left rfl, HasShortNames,
        paths]
      simp [parsedPath]
    have values (name : String) :
      ((backendOrganizationFileLinkAddr lib).params (noSslParams useSsl) fields).values name =
        UrlParams.values [("action", "file_link"), ("workspace_id", String.ofList (UUID.text fields.workspaceId)),
            ("path", FsPath.text fields.path)] name ++ ((noSslParams useSsl).values name ++
          UrlParams.values [("rvk", exportRootVerifyKey lib fields.organization.rootVerifyKey)] name) := by
      rw [← UrlParams.values_append, ← UrlParams.values_append]
      rfl
    have written : ((backendOrganizationFileLinkAddr lib).params (noSslParams useSsl) fields).values "path" =
        [FsPath.text fields.path] := by
      simp [values, noSslParams_values]
    rw [kept, backendOrganizationFileLinkAddr_parse_iff]
    constructor
    · rintro ⟨-, -, -, ⟨raw, found, parsed⟩, -⟩
      rw [written, List.singleton_inj] at found
      rw [found]
      exact parsed
    · intro back
      refine ⟨OrganizationParamsFixture.parseRvk_toParams documented rvk ?_, ?_,
        ⟨_, ?_, documented.uuid_text (documented.uuid_lt parsed)⟩,
        ⟨_, written, back⟩, parseOrganizationPath_readPath read⟩
      all_goals simp [values, noSslParams_values]
  never params path := by
    apply Except.bind_ne_error (OrganizationParamsFixture.parseRvk_ne_assertion _)
    refine fun _ => Except.bind_ne_error (expectAction_ne_assertion _ _) fun _ => ?_
    refine Except.bind_ne_error (UrlParams.mandatory_ne_assertion _) fun rawId => ?_
    apply Except.bind_ne_error
    · cases lib.uuidOfText (.str rawId) <;> exact nofun
    refine fun _ => Except.bind_ne_error (UrlParams.mandatory_ne_assertion _) fun rawPath => ?_
    apply Except.bind_ne_error
    · cases FsPath.parse lib.normalize rawPath <;> exact nofun
    · exact fun _ => Except.bind_ne_error (parseOrganizationPath_ne_assertion _) fun _ => Except.pure_ne_error

end FileLink

section Invitation

theorem InvitationType.ofAction_eq_ok_iff {action : String} {invitationType : InvitationType} :
    ofAction action = .ok invitationType ↔ action = invitationType.action := by
  rw [ofAction]
  split
  · next user =>
    cases invitationType <;> simp [user, InvitationType.action]
  · next user =>
    split
    · next device => cases invitationType <;> simp [device, InvitationType.action]
    · next device => cases invitationType <;> simp [user, device, InvitationType.action]

theorem backendInvitationAddr_parse_iff {fields : InvitationFields} :
    (backendInvitationAddr lib).parse params path = .ok fields ↔
      params.values "action" = [fields.invitationType.action] ∧
      (∃ raw, params.values "token" = [raw] ∧ lib.uuidOfText (.str raw) = some fields.token) ∧
      parseOrganizationPath lib path = .ok fields.organizationId := by
  simp only [backendInvitationAddr, Except.bind_eq_ok_iff, Except.pure_eq_ok_iff, UrlParams.mandatory_eq_ok_iff,
    InvitationType.ofAction_eq_ok_iff, Option.elim_eq_ok_iff]
  constructor
  · rintro ⟨_, actions, invitationType, rfl, raw, tokens, token, parsed, organizationId, read, rfl⟩
    exact ⟨actions, ⟨raw, tokens, parsed⟩, read⟩
  · rintro ⟨actions, ⟨raw, tokens, parsed⟩, read⟩
    exact ⟨_, actions, _, rfl, raw, tokens, _, parsed, _, read, rfl⟩

theorem backendInvitationAddr_rereads (documented : lib.Documented) :
    (backendInvitationAddr lib).Rereads fun _ => True where
  noSsl useSsl fields := by simp [backendInvitationAddr]
  parse_iff := by
    intro params path fields accepted useSsl
    obtain ⟨-, ⟨raw, -, parsed⟩, read⟩ := backendInvitationAddr_parse_iff.mp accepted
    rw [backendInvitationAddr_parse_iff]
    refine iff_of_true ⟨?_, ⟨_, ?_, documented.uuid_hex (documented.uuid_lt parsed)⟩,
      parseOrganizationPath_readPath read⟩ trivial
    · simp [backendInvitationAddr, noSslParams_values]
    · simp [backendInvitationAddr, noSslParams_values]
  never params path := by
    refine Except.bind_ne_error (UrlParams.mandatory_ne_assertion _) fun action => ?_
    apply Except.bind_ne_error
    · rw [InvitationType.ofAction]
      split
      · exact nofun
      · split <;> exact nofun
    refine fun _ => Except.bind_ne_error (UrlParams.mandatory_ne_assertion _) fun rawToken => ?_
    apply Except.bind_ne_error
    · cases lib.uuidOfText (.str rawToken) <;> exact nofun
    · exact fun _ => Except.bind_ne_error (parseOrganizationPath_ne_assertion _) fun _ => Except.pure_ne_error

end Invitation

end Classes

end Guardata
