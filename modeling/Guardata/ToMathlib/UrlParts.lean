import Guardata.ToMathlib.PercentEncoding
import Mathlib.Data.List.DropRight

/-! # The parts of a URL

A URL is taken apart into its scheme, its authority, its path, its query and its fragment. The authority has a
host, which is lower-cased in front of a zone, and a port. A URL that was put together is taken apart into the same
parts, unless brackets or hidden delimiters get in the way. A host is written as it was read, without the brackets
that it may have stood in. It is read again if it needs none.
-/

namespace Url

open PercentEncoding

/-- What is known about texts, and what is demanded of an authority with brackets. -/
structure TextLibrary where
  /-- `str.lower`. -/
  lower : List Char → List Char
  /-- `unicodedata.normalize("NFKC", ·)`. -/
  normalize : List Char → List Char
  /-- An IP literal. Early versions demand nothing. -/
  bracketedNetloc : List Char → Bool

structure SplitResult where
  scheme : List Char
  netloc : List Char
  path : List Char
  query : List Char
  fragment : List Char
deriving DecidableEq, Repr

def delimiters : List Char := ['/', '?', '#', '@', ':']

/-- Characters that are taken out of a URL. -/
def unsafeCharacters : List Char := ['\t', '\r', '\n']

def schemeCharacters : List Char :=
  "abcdefghijklmnopqrstuvwxyzABCDEFGHIJKLMNOPQRSTUVWXYZ0123456789+-.".toList

section Split

variable (lib : TextLibrary)

/-- No character may turn into a delimiter. -/
def checkNetloc (netloc : List Char) : Bool :=
  let plain := netloc.filter (· ∉ ['@', ':', '#', '?'])
  netloc.all isAscii ∨ lib.normalize plain = plain ∨ ∀ char ∈ lib.normalize plain, char ∉ delimiters

def checkBrackets (netloc : List Char) : Bool :=
  if '[' ∈ netloc then ']' ∈ netloc ∧ lib.bracketedNetloc netloc else ']' ∉ netloc

def splitScheme (url : List Char) : List Char × List Char :=
  match partition ':' url with
  | (first :: others, some rest) =>
    if first.isAlpha ∧ ∀ char ∈ first :: others, char ∈ schemeCharacters then
      ((first :: others).map Char.toLower, rest)
    else ([], url)
  | _ => ([], url)

def splitNetloc : List Char → List Char × List Char
  | '/' :: '/' :: rest => (rest.takeWhile (· ∉ ['/', '?', '#']), rest.dropWhile (· ∉ ['/', '?', '#']))
  | rest => ([], rest)

def urlsplit (url : List Char) : Option SplitResult :=
  let url := (url.dropWhile fun char => char.toNat ≤ 0x20).filter (· ∉ unsafeCharacters)
  let scheme := splitScheme url
  let netloc := splitNetloc scheme.2
  let fragment := partition '#' netloc.2
  let query := partition '?' fragment.1
  if checkBrackets lib netloc.1 ∧ checkNetloc lib netloc.1 then
    some ⟨scheme.1, netloc.1, query.1, query.2.getD [], fragment.2.getD []⟩
  else none

/-- Behind an authority, a path begins with a slash. -/
def absolutePath (path : List Char) : List Char :=
  if path = [] ∨ path.head? = some '/' then path else '/' :: path

/-- Schemes that are known to have an authority are not considered: an authority is written if there is one. -/
def urlunsplit (parts : SplitResult) : List Char :=
  let rest := if parts.netloc = [] then parts.path else '/' :: '/' :: parts.netloc ++ absolutePath parts.path
  let rest := if parts.scheme = [] then rest else parts.scheme ++ ':' :: rest
  let rest := if parts.query = [] then rest else rest ++ '?' :: parts.query
  if parts.fragment = [] then rest else rest ++ '#' :: parts.fragment

namespace SplitResult

variable (split : SplitResult)

/-- The host and the port as they stand in the authority. -/
def hostinfo : List Char × Option (List Char) :=
  let hostinfo := split.netloc.rtakeWhile (· ≠ '@')
  let parts :=
    match (partition '[' hostinfo).2 with
    | some bracketed =>
      let host := partition ']' bracketed
      (host.1, (partition ':' (host.2.getD [])).2)
    | none => partition ':' hostinfo
  (parts.1, parts.2.filter (· ≠ []))

end SplitResult

/-- A zone is not lower-cased. -/
def lowerHost (host : List Char) : List Char :=
  let parts := partition '%' host
  lib.lower parts.1 ++ parts.2.elim [] ('%' :: ·)

def SplitResult.hostname (split : SplitResult) : Option (List Char) :=
  if split.hostinfo.1 = [] then none else some (lowerHost lib split.hostinfo.1)

/-- Outside, there is no port if it is no number or too large. Inside, if there is none in the authority. -/
def SplitResult.port (split : SplitResult) : Option (Option ℕ) :=
  match split.hostinfo.2 with
  | none => some none
  | some digits =>
    let port := Nat.ofDigitChars 10 digits 0
    if digits.all Char.isDigit ∧ port ≤ 65535 then some (some port) else none

end Split

variable {lib : TextLibrary}

section Unicode

/-- The compatibility form of a character may contain delimiters. -/
def TextLibrary.HidesDelimiter (lib : TextLibrary) (char : Char) : Prop :=
  ∃ delimiter ∈ delimiters, delimiter ∈ lib.normalize [char]

/-- What Unicode says about lower case and compatibility forms. -/
structure TextLibrary.Unicode (lib : TextLibrary) : Prop where
  lower_idempotent : ∀ text, lib.lower (lib.lower text) = lib.lower text
  /-- No lower case means something in an authority, or hides what does. -/
  mem_of_mem_lower : ∀ {text char}, char ∈ lib.lower text →
    char ∈ '[' :: ']' :: '%' :: unsafeCharacters ∨ lib.HidesDelimiter char → char ∈ text
  normalize_ascii : ∀ char, isAscii char = true → lib.normalize [char] = [char]
  mem_normalize_iff : ∀ {text delimiter}, delimiter ∈ delimiters →
    (delimiter ∈ lib.normalize text ↔ ∃ char ∈ text, delimiter ∈ lib.normalize [char])

theorem TextLibrary.Unicode.delimiter_of_ascii (unicode : lib.Unicode) {char delimiter : Char}
    (ascii : isAscii char = true)
    (inside : delimiter ∈ lib.normalize [char]) : delimiter = char := by
  rw [unicode.normalize_ascii char ascii] at inside
  exact List.mem_singleton.mp inside

theorem checkNetloc_iff (unicode : lib.Unicode) {netloc : List Char} (noSlash : '/' ∉ netloc) :
    checkNetloc lib netloc = true ↔ ∀ char ∈ netloc, char ∉ delimiters → ¬ lib.HidesDelimiter char := by
  have mem_plain {char : Char} :
      char ∈ netloc.filter (· ∉ ['@', ':', '#', '?']) ↔ char ∈ netloc ∧ char ∉ delimiters := by
    rw [List.mem_filter]
    simp only [delimiters, List.mem_cons, List.not_mem_nil, or_false, not_or, decide_eq_true_eq]
    constructor
    · rintro ⟨inside, other⟩
      exact ⟨inside, fun slash => noSlash (slash ▸ inside), by tauto⟩
    · rintro ⟨inside, -, other⟩
      exact ⟨inside, by tauto⟩
  rw [checkNetloc, decide_eq_true_eq]
  constructor
  · rintro (ascii | same | clean) char inside other ⟨delimiter, among, hidden⟩
    · have ascii : isAscii char = true := List.all_eq_true.mp ascii char inside
      exact other (unicode.delimiter_of_ascii ascii hidden ▸ among)
    · have written := (unicode.mem_normalize_iff among).mpr ⟨char, mem_plain.mpr ⟨inside, other⟩, hidden⟩
      rw [same] at written
      exact (mem_plain.mp written).2 among
    · exact clean delimiter ((unicode.mem_normalize_iff among).mpr ⟨char, mem_plain.mpr ⟨inside, other⟩, hidden⟩) among
  · intro plain
    refine .inr (.inr ?_)
    intro delimiter written among
    obtain ⟨char, inside, hidden⟩ := (unicode.mem_normalize_iff among).mp written
    exact plain char (mem_plain.mp inside).1 (mem_plain.mp inside).2 ⟨delimiter, among, hidden⟩

end Unicode

section Hosts

/-- What a host is that was read from a URL. -/
structure IsHost (lib : TextLibrary) (host : List Char) : Prop where
  nonempty : host ≠ []
  clean : ∀ char ∈ host, char ∉ '/' :: '?' :: '#' :: '@' :: unsafeCharacters
  brackets : '[' ∉ host ∨ ']' ∉ host
  lowered : lowerHost lib host = host
  plain : ∀ char ∈ host, char ∉ delimiters → ¬ lib.HidesDelimiter char

variable {host : List Char}

theorem mem_lowerHost {char : Char} (member : char ∈ lowerHost lib host) :
    char ∈ lib.lower (partition '%' host).1 ∨ char ∈ host := by
  rcases List.mem_append.mp member with name | zone
  · exact .inl name
  · right
    rw [← partition_join '%' host]
    exact List.mem_append_right _ zone

/-- What means something in a host was there before it was lower-cased. -/
theorem mem_of_mem_lowerHost (unicode : lib.Unicode) {char : Char} (member : char ∈ lowerHost lib host)
    (marked : char ∈ '[' :: ']' :: '%' :: unsafeCharacters ∨ lib.HidesDelimiter char) : char ∈ host := by
  rcases mem_lowerHost member with name | there
  · exact partition_fst_subset '%' host (unicode.mem_of_mem_lower name marked)
  · exact there

theorem TextLibrary.Unicode.hidesDelimiter (unicode : lib.Unicode) {char : Char} (delimiter : char ∈ delimiters) :
    lib.HidesDelimiter char := by
  refine ⟨char, delimiter, ?_⟩
  have ascii : ∀ char ∈ delimiters, isAscii char = true := by decide
  rw [unicode.normalize_ascii char (ascii char delimiter)]
  exact List.mem_singleton_self char

theorem lowerHost_lowerHost (unicode : lib.Unicode) : lowerHost lib (lowerHost lib host) = lowerHost lib host := by
  have clean : '%' ∉ lib.lower (partition '%' host).1 := fun member =>
    not_mem_partition '%' host (unicode.mem_of_mem_lower member (.inl (by simp)))
  have apart : partition '%' (lowerHost lib host) = (lib.lower (partition '%' host).1, (partition '%' host).2) := by
    simp only [lowerHost]
    cases (partition '%' host).2 with
    | none => rw [Option.elim_none, List.append_nil, partition_of_not_mem clean]
    | some zone => rw [Option.elim_some, partition_append clean]
  rw [lowerHost, apart]
  simp only [unicode.lower_idempotent]
  rfl

/-- The host of an authority is a part of it that has an opening or a closing bracket, and not both. -/
theorem SplitResult.hostinfo_spec (split : SplitResult) :
    (∀ char ∈ split.hostinfo.1, char ∈ split.netloc ∧ char ≠ '@') ∧
      ('[' ∉ split.hostinfo.1 ∨ ']' ∉ split.hostinfo.1) := by
  have behind : ∀ char ∈ split.netloc.rtakeWhile (· ≠ '@'), char ∈ split.netloc ∧ char ≠ '@' := fun char member =>
    ⟨(List.rtakeWhile_suffix ..).subset member, by simpa using List.mem_rtakeWhile_imp member⟩
  simp only [hostinfo]
  generalize split.netloc.rtakeWhile (· ≠ '@') = hostinfo at behind ⊢
  cases found : (partition '[' hostinfo).2 with
  | some bracketed =>
    have inside := partition_snd_subset found
    exact ⟨fun char member => behind char (inside (partition_fst_subset _ _ member)),
      .inr (not_mem_partition ']' bracketed)⟩
  | none =>
    have clean : '[' ∉ hostinfo := not_mem_of_partition_snd found
    exact ⟨fun char member => behind char (partition_fst_subset _ _ member),
      .inl fun member => clean (partition_fst_subset _ _ member)⟩

theorem splitScheme_subset (url : List Char) : (splitScheme url).2 ⊆ url := by
  rw [splitScheme]
  split
  · next found =>
    split
    · exact partition_snd_subset (congrArg Prod.snd found)
    · exact List.Subset.refl url
  · exact List.Subset.refl url

theorem mem_splitNetloc {rest : List Char} {char : Char} (member : char ∈ (splitNetloc rest).1) :
    char ∈ rest ∧ char ∉ ['/', '?', '#'] := by
  rw [splitNetloc.eq_def] at member
  split at member
  · have other := List.mem_takeWhile_imp member
    refine ⟨?_, of_decide_eq_true other⟩
    exact List.mem_cons_of_mem _ (List.mem_cons_of_mem _ (List.takeWhile_subset _ member))
  · cases member

/-- What an authority is that comes out of a URL. -/
theorem urlsplit_spec {url : List Char} {split : SplitResult} (accepted : urlsplit lib url = some split) :
    (∀ char ∈ split.netloc, char ∉ ['/', '?', '#'] ∧ char ∉ unsafeCharacters) ∧
      checkNetloc lib split.netloc = true := by
  simp only [urlsplit, Option.ite_none_right_eq_some, Option.some.injEq] at accepted
  obtain ⟨⟨-, checked⟩, rfl⟩ := accepted
  refine ⟨fun char member => ?_, checked⟩
  obtain ⟨inside, other⟩ := mem_splitNetloc member
  have kept := splitScheme_subset _ inside
  rw [List.mem_filter, decide_eq_true_eq] at kept
  exact ⟨other, kept.2⟩

theorem isHost_of_urlsplit (unicode : lib.Unicode) {url : List Char} {split : SplitResult}
    (accepted : urlsplit lib url = some split) (read : split.hostname lib = some host) (some : host ≠ []) :
    IsHost lib host := by
  rw [SplitResult.hostname, Option.ite_none_left_eq_some] at read
  obtain ⟨-, read⟩ := read
  obtain rfl := Option.some.inj read
  obtain ⟨clean, checked⟩ := urlsplit_spec accepted
  obtain ⟨inside, brackets⟩ := split.hostinfo_spec
  have plain := (checkNetloc_iff unicode fun slash => (clean _ slash).1 (by simp)).mp checked
  have before {char : Char} (member : char ∈ lowerHost lib split.hostinfo.1)
      (marked : char ∈ '[' :: ']' :: '%' :: unsafeCharacters ∨ lib.HidesDelimiter char) :=
    inside char (mem_of_mem_lowerHost unicode member marked)
  refine ⟨some, ?_, ?_, lowerHost_lowerHost unicode, ?_⟩
  · intro char member bad
    have marked : char ∈ '[' :: ']' :: '%' :: unsafeCharacters ∨ lib.HidesDelimiter char := by
      have among : ∀ char ∈ ['/', '?', '#', '@'], char ∈ delimiters := by decide
      rcases List.mem_append.mp (show char ∈ ['/', '?', '#', '@'] ++ unsafeCharacters from bad) with delimiter | blank
      · exact .inr (unicode.hidesDelimiter (among char delimiter))
      · exact .inl (by simp [blank])
    obtain ⟨there, other⟩ := before member marked
    obtain ⟨delimiter, safe⟩ := clean char there
    simp only [List.mem_cons, List.not_mem_nil, or_false, not_or] at bad delimiter
    tauto
  · exact brackets.imp (mt fun member => mem_of_mem_lowerHost unicode member (.inl (by simp)))
      (mt fun member => mem_of_mem_lowerHost unicode member (.inl (by simp)))
  · intro char member other hidden
    exact plain char (before member (.inr hidden)).1 other hidden

end Hosts

section Join

def lowerLetters : List Char := "abcdefghijklmnopqrstuvwxyz".toList

/-- Parts that can be told apart when they are put together. -/
structure SplitResult.Distinct (parts : SplitResult) : Prop where
  scheme : parts.scheme ≠ [] ∧ ∀ char ∈ parts.scheme, char ∈ lowerLetters
  netloc : parts.netloc ≠ [] ∧ ∀ char ∈ parts.netloc, char ∉ ['/', '?', '#'] ∧ char ∉ unsafeCharacters
  path : ∀ char ∈ parts.path, char ∉ ['?', '#'] ∧ char ∉ unsafeCharacters
  query : ∀ char ∈ parts.query, char ∉ '#' :: unsafeCharacters
  fragment : parts.fragment = []

theorem lowerLetters_spec : ∀ char ∈ lowerLetters, char.isAlpha = true ∧ char ∈ schemeCharacters ∧
    char.toLower = char ∧ 0x20 < char.toNat ∧ char ∉ unsafeCharacters := by
  decide

theorem splitScheme_append {scheme : List Char} (some : scheme ≠ []) (lower : ∀ char ∈ scheme, char ∈ lowerLetters)
    (rest : List Char) : splitScheme (scheme ++ ':' :: rest) = (scheme, rest) := by
  have clean : ':' ∉ scheme := fun colon => absurd (lower _ colon) (by decide)
  have each char member := lowerLetters_spec char (lower char member)
  have same : scheme.map Char.toLower = scheme :=
    (List.map_congr_left fun char member => (each char member).2.2.1).trans (List.map_id _)
  rw [splitScheme, partition_append clean]
  cases scheme with
  | nil => exact absurd rfl some
  | cons first others =>
    simp only
    rw [if_pos ⟨(each first (List.mem_cons_self ..)).1, fun char member => (each char member).2.1⟩, same]

theorem splitNetloc_append {netloc rest : List Char} (clean : ∀ char ∈ netloc, char ∉ ['/', '?', '#'])
    (stops : ∀ char ∈ rest.head?, char ∈ ['/', '?', '#']) :
    splitNetloc ('/' :: '/' :: (netloc ++ rest)) = (netloc, rest) := by
  have pass : ∀ char ∈ netloc, decide (char ∉ ['/', '?', '#']) = true := by simpa using clean
  rw [splitNetloc, List.takeWhile_append_of_pos pass, List.dropWhile_append_of_pos pass]
  cases rest with
  | nil => rw [List.takeWhile_nil, List.dropWhile_nil, List.append_nil]
  | cons char rest =>
    have stop : decide (char ∉ ['/', '?', '#']) = false := by
      rw [decide_eq_false_iff_not, not_not]
      exact stops char rfl
    rw [List.takeWhile_cons, List.dropWhile_cons, stop, if_neg Bool.false_ne_true, if_neg Bool.false_ne_true,
      List.append_nil]

/-- What is written behind the authority. -/
def SplitResult.behind (parts : SplitResult) : List Char :=
  absolutePath parts.path ++ if parts.query = [] then [] else '?' :: parts.query

variable {parts : SplitResult}

theorem SplitResult.Distinct.urlunsplit_eq (distinct : parts.Distinct) :
    urlunsplit parts = parts.scheme ++ ':' :: '/' :: '/' :: (parts.netloc ++ parts.behind) := by
  simp only [urlunsplit, if_neg distinct.scheme.1, if_neg distinct.netloc.1, if_pos distinct.fragment, behind]
  split <;> simp

theorem mem_absolutePath {path : List Char} {char : Char} (member : char ∈ absolutePath path) :
    char ∈ path ∨ char = '/' := by
  rw [absolutePath] at member
  split at member
  · exact .inl member
  · exact (List.mem_cons.mp member).symm

theorem SplitResult.mem_behind {char : Char} (member : char ∈ parts.behind) :
    char ∈ parts.path ∨ char = '/' ∨ char = '?' ∨ char ∈ parts.query := by
  rcases List.mem_append.mp member with path | query
  · exact (mem_absolutePath path).imp_right .inl
  · split at query
    · cases query
    · exact .inr (.inr (List.mem_cons.mp query))

theorem SplitResult.Distinct.partition_behind (distinct : parts.Distinct) :
    partition '#' parts.behind = (parts.behind, none) ∧
      partition '?' parts.behind = (absolutePath parts.path, if parts.query = [] then none else some parts.query) := by
  have query : '?' ∉ absolutePath parts.path := fun member => by
    rcases mem_absolutePath member with there | slash
    · exact (distinct.path _ there).1 (by simp)
    · exact absurd slash (by decide)
  have fragment : '#' ∉ parts.behind := fun member => by
    rcases mem_behind member with path | slash | mark | query
    · exact (distinct.path _ path).1 (by simp)
    · exact absurd slash (by decide)
    · exact absurd mark (by decide)
    · exact distinct.query _ query (by simp)
  refine ⟨partition_of_not_mem fragment, ?_⟩
  rw [behind]
  split
  · rw [List.append_nil, partition_of_not_mem query]
  · rw [partition_append query]

theorem SplitResult.head?_behind : ∀ char ∈ parts.behind.head?, char ∈ ['/', '?', '#'] := by
  rw [behind, absolutePath]
  intro char first
  split at first
  · next absolute =>
    rcases absolute with none | slash
    · rw [none] at first
      split at first
      · cases first
      · cases first
        simp
    · rw [List.head?_append, slash] at first
      cases first
      simp
  · cases first
    simp

/-- Nothing is taken out of a URL that was put together. -/
theorem SplitResult.Distinct.mem_urlunsplit (distinct : parts.Distinct) :
    ∀ char ∈ urlunsplit parts, char ∉ unsafeCharacters := by
  intro char member
  rw [distinct.urlunsplit_eq] at member
  rcases List.mem_append.mp member with scheme | rest
  · exact (lowerLetters_spec char (distinct.scheme.2 char scheme)).2.2.2.2
  · simp only [List.mem_cons, List.mem_append] at rest
    rcases rest with rfl | rfl | rfl | netloc | behind
    · decide
    · decide
    · decide
    · exact (distinct.netloc.2 char netloc).2
    · rcases mem_behind behind with path | rfl | rfl | query
      · exact (distinct.path char path).2
      · decide
      · decide
      · exact fun blank => distinct.query char query (List.mem_cons_of_mem _ blank)

/-- What was put together is taken apart again, if nothing is wrong with the authority. -/
theorem urlsplit_urlunsplit (distinct : parts.Distinct) :
    urlsplit lib (urlunsplit parts) =
      if checkBrackets lib parts.netloc ∧ checkNetloc lib parts.netloc then
        some { parts with path := absolutePath parts.path }
      else none := by
  have kept : ((urlunsplit parts).dropWhile fun char => char.toNat ≤ 0x20).filter (· ∉ unsafeCharacters) =
      urlunsplit parts := by
    have front : (urlunsplit parts).dropWhile (fun char => char.toNat ≤ 0x20) = urlunsplit parts := by
      obtain ⟨some, lower⟩ := distinct.scheme
      rw [distinct.urlunsplit_eq]
      cases scheme : parts.scheme with
      | nil => exact absurd scheme some
      | cons first others =>
        have letter := (lowerLetters_spec first (lower first (by simp [scheme]))).2.2.2.1
        exact List.dropWhile_cons_of_neg (by simpa using letter)
    rw [front, List.filter_eq_self]
    exact fun char member => decide_eq_true (distinct.mem_urlunsplit char member)
  have scheme := splitScheme_append distinct.scheme.1 distinct.scheme.2 ('/' :: '/' :: (parts.netloc ++ parts.behind))
  have netloc := splitNetloc_append (fun char member => (distinct.netloc.2 char member).1) parts.head?_behind
  obtain ⟨fragment, query⟩ := distinct.partition_behind
  have queryText : (if parts.query = [] then none else some parts.query).getD [] = parts.query := by
    split
    · next none => rw [none]; rfl
    · rfl
  rw [distinct.urlunsplit_eq] at kept ⊢
  simp only [urlsplit, kept, scheme, netloc, fragment, query, queryText, distinct.fragment, Option.getD_none]

end Join

section Authority

/-- An authority without user information. -/
def writeNetloc (host : List Char) (port : Option ℕ) : List Char :=
  host ++ port.elim [] fun port => ':' :: Nat.toDigits 10 port

variable {host : List Char} {port : Option ℕ} {split : SplitResult}

theorem mem_writeNetloc {char : Char} (member : char ∈ writeNetloc host port) :
    char ∈ host ∨ char = ':' ∨ char.isDigit = true := by
  rcases List.mem_append.mp member with name | rest
  · exact .inl name
  · cases port with
    | none => cases rest
    | some port =>
      refine .inr ((List.mem_cons.mp rest).imp_right ?_)
      exact Nat.isDigit_of_mem_toDigits (by decide) (by decide)

theorem mem_writeNetloc_iff {char : Char} (other : char ≠ ':') (noDigit : char.isDigit = false) :
    char ∈ writeNetloc host port ↔ char ∈ host := by
  constructor
  · intro member
    rcases mem_writeNetloc member with there | colon | digit
    · exact there
    · exact absurd colon other
    · rw [noDigit] at digit
      cases digit
  · exact fun member => List.mem_append_left _ member

theorem isAscii_of_isDigit {char : Char} (digit : char.isDigit = true) : isAscii char = true := by
  obtain ⟨-, small⟩ := Char.isDigit_iff_toNat.mp digit
  exact decide_eq_true (Nat.lt_of_le_of_lt small (by decide))

theorem IsHost.checkNetloc_writeNetloc (unicode : lib.Unicode) (is : IsHost lib host) :
    checkNetloc lib (writeNetloc host port) = true := by
  have noSlash : '/' ∉ writeNetloc host port := by
    rw [mem_writeNetloc_iff (by decide) rfl]
    exact fun slash => is.clean _ slash (by simp)
  rw [checkNetloc_iff unicode noSlash]
  rintro char member other ⟨delimiter, among, hidden⟩
  rcases mem_writeNetloc member with there | rfl | digit
  · exact is.plain char there other ⟨delimiter, among, hidden⟩
  · exact other (by decide)
  · exact other (unicode.delimiter_of_ascii (isAscii_of_isDigit digit) hidden ▸ among)

/-- A host without a colon and brackets, and its port, are what is found. -/
theorem hostinfo_writeNetloc (clean : ∀ char ∈ ['@', ':', '[', ']'], char ∉ host)
    (is : split.netloc = writeNetloc host port) : split.hostinfo = (host, port.map (Nat.toDigits 10)) := by
  simp only [List.mem_cons, List.not_mem_nil, or_false, forall_eq_or_imp, forall_eq] at clean
  obtain ⟨noAt, noColon, noOpen, -⟩ := clean
  have whole : split.netloc.rtakeWhile (· ≠ '@') = writeNetloc host port := by
    rw [is, List.rtakeWhile_eq_self_iff]
    intro char member
    refine decide_eq_true ?_
    rintro rfl
    exact noAt ((mem_writeNetloc_iff (by decide) rfl).mp member)
  have noBracket : '[' ∉ writeNetloc host port := by
    rwa [mem_writeNetloc_iff (by decide) rfl]
  simp only [SplitResult.hostinfo, whole, partition_of_not_mem noBracket]
  cases port with
  | none => rw [writeNetloc, Option.elim_none, List.append_nil, partition_of_not_mem noColon]; rfl
  | some port =>
    rw [writeNetloc, Option.elim_some, partition_append noColon, Option.filter_some,
      if_pos (decide_eq_true Nat.toDigits_ne_nil)]
    rfl

theorem SplitResult.port_le {number : ℕ} (read : split.port = some (some number)) : number ≤ 65535 := by
  rw [SplitResult.port] at read
  split at read
  · cases read
  · simp only [Option.ite_none_right_eq_some, Option.some.injEq] at read
    obtain ⟨⟨-, small⟩, rfl⟩ := read
    exact small

theorem port_of_hostinfo {name : List Char} (is : split.hostinfo = (name, port.map (Nat.toDigits 10)))
    (small : ∀ number ∈ port, number ≤ 65535) : split.port = some port := by
  rw [SplitResult.port, is]
  cases port with
  | none => rfl
  | some port =>
    have digits : (Nat.toDigits 10 port).all Char.isDigit = true :=
      List.all_eq_true.mpr fun char member => Nat.isDigit_of_mem_toDigits (by decide) (by decide) member
    simp only [Option.map_some, Nat.ofDigitChars_ten_toDigits]
    rw [if_pos ⟨digits, small port rfl⟩]

/-- Outside of brackets, a colon ends the host. -/
theorem SplitResult.colon_not_mem_hostinfo (noOpen : '[' ∉ split.netloc) : ':' ∉ split.hostinfo.1 := by
  have clean : '[' ∉ split.netloc.rtakeWhile (· ≠ '@') := fun member =>
    noOpen ((List.rtakeWhile_suffix ..).subset member)
  simp only [hostinfo, partition_of_not_mem clean]
  exact not_mem_partition ':' _

/-- A host that was read is read again if it needs no brackets. -/
theorem IsHost.reads_iff (unicode : lib.Unicode) (is : IsHost lib host)
    (written : split.netloc = writeNetloc host port) :
    (checkBrackets lib split.netloc = true ∧ split.hostname lib = some host) ↔
      ∀ char ∈ [':', '[', ']'], char ∉ host := by
  have noOpen : '[' ∈ split.netloc ↔ '[' ∈ host := written ▸ mem_writeNetloc_iff (by decide) rfl
  have noClose : ']' ∈ split.netloc ↔ ']' ∈ host := written ▸ mem_writeNetloc_iff (by decide) rfl
  simp only [List.mem_cons, List.not_mem_nil, or_false, forall_eq_or_imp, forall_eq]
  simp only [checkBrackets, noOpen, noClose]
  constructor
  · rintro ⟨checked, read⟩
    have brackets : '[' ∉ host ∧ ']' ∉ host := by
      split at checked
      · next opened => exact absurd (of_decide_eq_true checked).1 (is.brackets.resolve_left (not_not.mpr opened))
      · next none => exact ⟨none, of_decide_eq_true checked⟩
    refine ⟨fun colon => ?_, brackets⟩
    rw [SplitResult.hostname, Option.ite_none_left_eq_some] at read
    obtain ⟨-, read⟩ := read
    rw [← Option.some.inj read] at colon
    exact SplitResult.colon_not_mem_hostinfo (noOpen.not.mpr brackets.1)
      (mem_of_mem_lowerHost unicode colon (.inr (unicode.hidesDelimiter (by decide))))
  · rintro ⟨noColon, opened, closed⟩
    have noAt : '@' ∉ host := fun member => is.clean _ member (by simp)
    have info : split.hostinfo = (host, port.map (Nat.toDigits 10)) :=
      hostinfo_writeNetloc (by simp [noAt, noColon, opened, closed]) written
    rw [if_neg opened, SplitResult.hostname, info, if_neg is.nonempty, is.lowered]
    exact ⟨decide_eq_true closed, rfl⟩

end Authority

end Url
