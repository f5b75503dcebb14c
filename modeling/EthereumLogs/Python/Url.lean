import EthereumLogs.Python.Digits

namespace EthereumLogs.Python
open Numeral

def before (sep : Char) (s : Text) : Text := s.takeWhile (· ≠ sep)

def after (sep : Char) (s : Text) : Text := (s.dropWhile (· ≠ sep)).drop 1

def afterLast (sep : Char) (s : Text) : Text := (s.reverse.takeWhile (· ≠ sep)).reverse

section IpAddress

def parseOctet (octet : Text) : Option ℕ :=
  let n := decimalDigitsValue octet
  if octet = [] ∨ ¬ octet.all isDecimalDigit ∨ 3 < octet.length then none
  else if octet ≠ ['0'] ∧ octet.head? = some '0' then none
  else if 255 < n then none else some n

def ipv4Address (address : Text) : Option ℕ :=
  let octets := address.splitOn '.'
  if '/' ∈ address ∨ octets.length ≠ 4 then none
  else (octets.mapM parseOctet).map (value 256)

def isHextet (hextet : Text) : Bool :=
  hextet ≠ [] && hextet.all isHexDigit && hextet.length ≤ 4

-- an IPv4 suffix stands for the last two hextets
def hextets (address : Text) : Option (List Text) :=
  let parts := address.splitOn ':'
  let suffix := parts.getLast?.getD []
  if parts.length < 3 then none
  else if '.' ∈ suffix then
    (ipv4Address suffix).map fun n =>
      parts.dropLast ++ [Nat.toDigits 16 (n / 2 ^ 16), Nat.toDigits 16 (n % 2 ^ 16)]
  else some parts

-- the parts on one side of '::', where only the address's own end may be empty
def besideSkip (endPart : Option Text) (side : List Text) : Option (List Text) :=
  if endPart = some [] then if side.length = 1 then some [] else none
  else some side

def isIpv6Number (address : Text) : Bool :=
  match hextets address with
  | none => false
  | some parts =>
    let skips := (List.range parts.length).filter fun i =>
      0 < i && i < parts.length - 1 && parts[i]? = some []
    if 9 < parts.length then false
    else match skips with
      | [] => parts.length = 8 && parts.all isHextet
      | [skip] =>
        match besideSkip parts.head? (parts.take skip), besideSkip parts.getLast? (parts.drop (skip + 1)) with
        | some high, some low => high.length + low.length < 8 && (high ++ low).all isHextet
        | _, _ => false
      | _ => false

def isIpv6Address (address : Text) : Bool :=
  let scope := after '%' address
  '/' ∉ address && ('%' ∉ address || (scope ≠ [] && '%' ∉ scope)) &&
    isIpv6Number (before '%' address)

end IpAddress

structure SplitResult where
  scheme : Text
  netloc : Text
  path : Text
  query : Text
  fragment : Text
deriving DecidableEq, Repr

def isSchemeChar (c : Char) : Bool := c.isAlphanum || c = '+' || c = '-' || c = '.'

def splitScheme (url : Text) : Text × Text :=
  match before ':' url with
  | c :: cs =>
    if ':' ∈ url ∧ c.isAlpha ∧ (c :: cs).all isSchemeChar then (lower (c :: cs), after ':' url)
    else ([], url)
  | [] => ([], url)

def isNetlocEnd (c : Char) : Bool := c = '/' || c = '?' || c = '#'

-- \Av[a-fA-F0-9]+\..+\Z
def isIpvFuture (host : Text) : Bool :=
  let version := (host.drop 1).takeWhile isHexDigit
  match (host.drop 1).dropWhile isHexDigit with
  | '.' :: rest => version ≠ [] && rest ≠ [] && '\n' ∉ rest
  | _ => false

def checkBracketedHost (host : Text) : Except Exc Unit :=
  if host.head? = some 'v' then
    if isIpvFuture host then .ok () else .error (.valueError "IPvFuture address is invalid")
  else if (ipv4Address host).isSome then
    .error (.valueError "An IPv4 address cannot be in brackets")
  else if isIpv6Address host then .ok ()
  else .error (.valueError "does not appear to be an IPv4 or IPv6 address")

def checkBracketedNetloc (netloc : Text) : Except Exc Unit :=
  let hostAndPort := afterLast '@' netloc
  let bracketed := after '[' hostAndPort
  let port := after ']' bracketed
  if '[' ∈ hostAndPort then
    if before '[' hostAndPort ≠ [] ∨ (port ≠ [] ∧ port.head? ≠ some ':') then
      .error (.valueError "Invalid IPv6 URL")
    else checkBracketedHost (before ']' bracketed)
  else checkBracketedHost (before ':' hostAndPort)

def checkBrackets (netloc : Text) : Except Exc Unit :=
  if ('[' ∈ netloc ∧ ']' ∉ netloc) ∨ (']' ∈ netloc ∧ '[' ∉ netloc) then
    .error (.valueError "Invalid IPv6 URL")
  else if '[' ∈ netloc then checkBracketedNetloc netloc
  else .ok ()

def isAsciiText (s : Text) : Bool := s.all fun c => c.toNat < 128

-- nfkc is unicodedata.normalize('NFKC', ·)
def checkNetloc (nfkc : Text → Text) (netloc : Text) : Except Exc Unit :=
  let plain := netloc.filter fun c => c ∉ ['@', ':', '#', '?']
  if isAsciiText netloc ∨ plain = nfkc plain then .ok ()
  else if (nfkc plain).any fun c => c ∈ ['/', '?', '#', '@', ':'] then
    .error (.valueError ("netloc '" ++ String.ofList netloc ++
      "' contains invalid characters under NFKC normalization"))
  else .ok ()

def cleanUrl (url : Text) : Text :=
  (url.dropWhile fun c => c.toNat ≤ 32).filter fun c => c ∉ ['\t', '\r', '\n']

def splitNetloc (url : Text) : Text × Text :=
  match url with
  | '/' :: '/' :: rest => (rest.takeWhile (!isNetlocEnd ·), rest.dropWhile (!isNetlocEnd ·))
  | url => ([], url)

def urlsplit (nfkc : Text → Text) (url : Text) : Except Exc SplitResult := do
  let (scheme, rest) := splitScheme (cleanUrl url)
  let (netloc, rest) := splitNetloc rest
  checkBrackets netloc
  let beforeFragment := before '#' rest
  checkNetloc nfkc netloc
  .ok ⟨scheme, netloc, before '?' beforeFragment, after '?' beforeFragment, after '#' rest⟩

def SplitResult.hostname (split : SplitResult) : Option Text :=
  let hostinfo := afterLast '@' split.netloc
  let host :=
    if '[' ∈ hostinfo then before ']' (after '[' hostinfo) else before ':' hostinfo
  if host = [] then none
  else some (strLower (before '%' host) ++ host.dropWhile (· ≠ '%'))

example : urlsplit id " HTTPS://u@Host.example:80/v2?k=1#f".toList =
    .ok ⟨"https".toList, "u@Host.example:80".toList, "/v2".toList, "k=1".toList, "f".toList⟩ := by
  decide

example : (urlsplit id "http://[::1.2.3.4]:80/".toList).map SplitResult.hostname =
      .ok (some "::1.2.3.4".toList) ∧
    (urlsplit id "http://[1.2.3.4]/".toList).toOption = none := by decide +kernel

section Plain

variable {nfkc : Text → Text} {url netloc : Text}

def PlainText (s : Text) : Prop := ∀ c ∈ s, c.toNat < 128 ∧ c ≠ '[' ∧ c ≠ ']'

theorem PlainText.subset {s t : Text} (h : PlainText s) (hts : t ⊆ s) : PlainText t :=
  fun c hc => h c (hts hc)

theorem splitScheme_subset : (splitScheme url).2 ⊆ url := by
  unfold splitScheme
  split
  · split_ifs
    · exact fun c hc => (List.dropWhile_sublist _).subset (List.mem_of_mem_drop hc)
    · exact fun c hc => hc
  · exact fun c hc => hc

theorem splitNetloc_subset : (splitNetloc url).1 ⊆ url := by
  unfold splitNetloc
  split
  · intro c hc
    exact List.mem_cons_of_mem _ (List.mem_cons_of_mem _ ((List.takeWhile_sublist _).subset hc))
  · exact List.nil_subset _

theorem cleanUrl_subset : cleanUrl url ⊆ url := fun _ hc =>
  (List.dropWhile_sublist _).subset (List.mem_of_mem_filter hc)

theorem checkBrackets_plain (h : PlainText netloc) : checkBrackets netloc = .ok () := by
  have hopen : '[' ∉ netloc := fun hc => (h '[' hc).2.1 rfl
  have hclose : ']' ∉ netloc := fun hc => (h ']' hc).2.2 rfl
  rw [checkBrackets, if_neg, if_neg hopen]
  rintro (⟨hin, -⟩ | ⟨hin, -⟩)
  · exact hopen hin
  · exact hclose hin

theorem checkNetloc_plain (h : PlainText netloc) : checkNetloc nfkc netloc = .ok () := by
  have hascii : isAsciiText netloc = true :=
    List.all_eq_true.mpr fun c hc => decide_eq_true (h c hc).1
  exact if_pos (.inl hascii)

theorem urlsplit_plain (h : PlainText url) : ∃ parsed, urlsplit nfkc url = .ok parsed := by
  have hnetloc : PlainText (splitNetloc (splitScheme (cleanUrl url)).2).1 :=
    h.subset fun c hc => cleanUrl_subset (splitScheme_subset (splitNetloc_subset hc))
  unfold urlsplit
  dsimp only [bind, Except.bind]
  rw [checkBrackets_plain hnetloc]
  dsimp only
  rw [checkNetloc_plain hnetloc]
  exact ⟨_, rfl⟩

end Plain

end EthereumLogs.Python
