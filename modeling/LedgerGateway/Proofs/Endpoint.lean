import LedgerGateway.Connection
import Mathlib.Data.List.DropRight
import Mathlib.Data.List.TakeWhile

/-!
# The host that is called and the name that is checked

The grammar of URIs has three kinds of hosts: registered names, IPv4 addresses, and IPv6 addresses
in brackets (`Uri.IsHost`).  It also says where the host of a URI is to be found (`Uri.host`).

The address of a peer is a host, with or without a port (`Uri.IsAddressOf`).  The host of the
endpoint is always this one, but the name that is checked ends at the first colon of the address,
and the colons of an IPv6 address come before the one of the port.  So both are the same unless the
host is in brackets (`Configuration.serverName_exact`).  What is left of an IPv6 address begins with
a bracket and is the name of no server, so in this case there is no connection at all.
-/

namespace LedgerGateway

namespace Endpoint

/-! ### Names that can be proved -/

/-- Joined texts have no characters but their own and the one between them. -/
theorem mem_intercalate {c d : Char} {groups : List (List Char)}
    (h : c ∈ [d].intercalate groups) : c = d ∨ ∃ cs ∈ groups, c ∈ cs := by
  induction groups with
  | nil => cases h
  | cons cs groups ih =>
    cases groups with
    | nil =>
      rw [List.intercalate_singleton] at h
      exact .inr ⟨cs, List.mem_cons_self, h⟩
    | cons cs' groups =>
      rw [List.intercalate_cons_cons, List.mem_append, List.mem_append] at h
      rcases h with (hmem | hmem) | hmem
      · exact .inr ⟨cs, List.mem_cons_self, hmem⟩
      · exact .inl (List.mem_singleton.1 hmem)
      · rcases ih hmem with heq | ⟨cs'', hcs'', hc⟩
        · exact .inl heq
        · exact .inr ⟨cs'', List.mem_cons_of_mem _ hcs'', hc⟩

/-- A text consists of its parts and the dots between them. -/
theorem mem_parts {c : Char} {cs : List Char} (h : c ∈ cs) :
    c = '.' ∨ ∃ part ∈ parts cs, c ∈ part :=
  mem_intercalate (by rwa [parts, List.intercalate_splitOn])

theorem isDigit_of_isAddress {cs : List Char} (h : isAddress cs) {c : Char} (hc : c ∈ cs) :
    c = '.' ∨ c.isDigit := by
  simp only [isAddress, isAddressNumber, Bool.and_eq_true, List.all_eq_true] at h
  rcases mem_parts hc with hdot | ⟨part, hpart, hc⟩
  · exact .inl hdot
  · exact .inr ((h.2 part hpart).1.1.2 c hc)

theorem isLabelChar_of_areLabels {cs : List Char} (h : areLabels (parts cs)) {c : Char}
    (hc : c ∈ cs) : c = '.' ∨ isLabelChar c := by
  simp only [areLabels, isLabel, Bool.and_eq_true, List.all_eq_true] at h
  rcases mem_parts hc with hdot | ⟨part, hpart, hc⟩
  · exact .inl hdot
  · exact .inr ((h.1 part hpart).1.1.2 c hc)

theorem isLabelChar_of_isHostName {cs : List Char} (h : isHostName cs) {c : Char} (hc : c ∈ cs) :
    c = '.' ∨ isLabelChar c := by
  simp only [isHostName, Bool.and_eq_true, Bool.or_eq_true, beq_iff_eq] at h
  rcases h.2 with hlabels | ⟨hlast, hlabels⟩
  · exact isLabelChar_of_areLabels hlabels hc
  · rw [← List.dropLast_append_getLast? '.' hlast, List.mem_append, List.mem_singleton] at hc
    rcases hc with hc | hdot
    · exact isLabelChar_of_areLabels hlabels hc
    · exact .inl hdot

/-- A name that a server can prove does not begin with a bracket. -/
theorem isServerName_bracket (cs : List Char) :
    isServerName (String.ofList ('[' :: cs)) = false := by
  rw [isServerName, String.toList_ofList, Bool.or_eq_false_iff]
  constructor
  · refine Bool.eq_false_iff.2 fun h => ?_
    rcases isLabelChar_of_isHostName h List.mem_cons_self with hdot | hlabel
    · exact absurd hdot (by decide)
    · exact absurd hlabel (by decide)
  · refine Bool.eq_false_iff.2 fun h => ?_
    rcases isDigit_of_isAddress h List.mem_cons_self with hdot | hdigit
    · exact absurd hdot (by decide)
    · exact absurd hdigit (by decide)

end Endpoint

namespace Uri

/-! ### Hosts -/

/-- The characters that divide a URI into its parts. -/
def delimiters : List Char := ":/?#[]@".toList

def isHexDigit (c : Char) : Bool :=
  c.isDigit || ('a' ≤ c && c ≤ 'f') || ('A' ≤ c && c ≤ 'F')

/-- Whether a character stands for itself in the name of a host. -/
def isNameChar (c : Char) : Bool :=
  c.isAlphanum || "-._~!$&'()*+,;=".toList.contains c

/-- Whether a text is a registered name.  Other bytes are written as a percent sign and two
digits. -/
def isName : List Char → Bool
  | [] => true
  | '%' :: high :: low :: cs => isHexDigit high && isHexDigit low && isName cs
  | c :: cs => isNameChar c && isName cs

def isGroup (cs : List Char) : Bool :=
  1 ≤ cs.length && cs.length ≤ 4 && cs.all isHexDigit

/-- The groups of an IPv6 address, and how many they count for.  In place of the last two there may
be an IPv4 address. -/
inductive AreGroups : Nat → List (List Char) → Prop
  | nil : AreGroups 0 []
  | address {cs : List Char} : Endpoint.isAddress cs → AreGroups 2 [cs]
  | cons {n : Nat} {cs : List Char} {groups : List (List Char)} : isGroup cs → AreGroups n groups →
      AreGroups (n + 1) (cs :: groups)

def join (groups : List (List Char)) : List Char :=
  [':'].intercalate groups

/-- An IPv6 address has eight groups, or a double colon in place of one or more of them. -/
inductive IsIpv6 : List Char → Prop
  | full {groups : List (List Char)} : AreGroups 8 groups → IsIpv6 (join groups)
  | short {n : Nat} {left right : List (List Char)} : (∀ cs ∈ left, isGroup cs) →
      AreGroups n right → left.length + n ≤ 7 → IsIpv6 (join left ++ ':' :: ':' :: join right)

def bracketed (cs : List Char) : List Char :=
  '[' :: cs ++ [']']

def IsLiteral (cs : List Char) : Prop :=
  ∃ inner, IsIpv6 inner ∧ cs = bracketed inner

inductive IsHost : List Char → Prop
  | name {cs : List Char} : isName cs → IsHost cs
  | address {cs : List Char} : Endpoint.isAddress cs → IsHost cs
  | literal {cs : List Char} : IsLiteral cs → IsHost cs

/-- The address of a peer on a host: the host, and a port if need be. -/
inductive IsAddressOf (host : List Char) : List Char → Prop
  | bare : IsHost host → IsAddressOf host host
  | port {digits : List Char} : IsHost host → digits.all Char.isDigit →
      IsAddressOf host (host ++ ':' :: digits)

/-- The authority of a URI: what comes behind the scheme and `://`, up to a slash, a question mark
or a number sign. -/
def authority (uri : List Char) : List Char :=
  ((uri.dropWhile (· != ':')).drop 3).takeWhile fun c => !"/?#".toList.contains c

/-- The host in an authority: behind the last `@`, and up to the closing bracket if it begins with a
bracket, or else up to a colon. -/
def hostOf (authority : List Char) : List Char :=
  let cs := authority.rtakeWhile (· != '@')
  if cs.head? = some '[' then cs.takeWhile (· != ']') ++ [']'] else cs.takeWhile (· != ':')

def host (uri : String) : String :=
  String.ofList (hostOf (authority uri.toList))

/-! ### Delimiters in hosts -/

/-- No delimiter is in the text. -/
def Undivided (cs : List Char) : Prop :=
  ∀ c ∈ cs, c ∉ delimiters

/-- A kind of character that no delimiter is of. -/
def SparesDelimiters (p : Char → Bool) : Prop :=
  delimiters.all (fun c => !p c) = true

theorem SparesDelimiters.not_mem {p : Char → Bool} (h : SparesDelimiters p) {c : Char}
    (hc : p c = true) : c ∉ delimiters := by
  intro hmem
  have hspared := List.all_eq_true.1 h c hmem
  rw [hc] at hspared
  cases hspared

theorem sparesDelimiters_isNameChar : SparesDelimiters isNameChar := by
  rw [SparesDelimiters]
  decide

theorem sparesDelimiters_isHexDigit : SparesDelimiters isHexDigit := by
  rw [SparesDelimiters]
  decide

theorem sparesDelimiters_isDigit : SparesDelimiters Char.isDigit := by
  rw [SparesDelimiters]
  decide

theorem undivided_of_isName {cs : List Char} (h : isName cs) : Undivided cs := by
  fun_induction isName cs with
  | case1 => exact List.forall_mem_nil _
  | case2 high low cs ih =>
    simp only [Bool.and_eq_true] at h
    obtain ⟨⟨hhigh, hlow⟩, hcs⟩ := h
    refine List.forall_mem_cons.2 ⟨by decide, List.forall_mem_cons.2 ⟨?_, ?_⟩⟩
    · exact sparesDelimiters_isHexDigit.not_mem hhigh
    · exact List.forall_mem_cons.2 ⟨sparesDelimiters_isHexDigit.not_mem hlow, ih hcs⟩
  | case3 c cs _ ih =>
    simp only [Bool.and_eq_true] at h
    exact List.forall_mem_cons.2 ⟨sparesDelimiters_isNameChar.not_mem h.1, ih h.2⟩

theorem undivided_of_isGroup {cs : List Char} (h : isGroup cs) : Undivided cs := by
  simp only [isGroup, Bool.and_eq_true, List.all_eq_true] at h
  exact fun c hc => sparesDelimiters_isHexDigit.not_mem (h.2 c hc)

theorem undivided_of_isAddress {cs : List Char} (h : Endpoint.isAddress cs) : Undivided cs := by
  intro c hc
  rcases Endpoint.isDigit_of_isAddress h hc with rfl | hdigit
  · decide
  · exact sparesDelimiters_isDigit.not_mem hdigit

theorem AreGroups.undivided {n : Nat} {groups : List (List Char)} (h : AreGroups n groups) :
    ∀ cs ∈ groups, Undivided cs := by
  induction h with
  | nil => exact List.forall_mem_nil _
  | address haddress => exact List.forall_mem_singleton.2 (undivided_of_isAddress haddress)
  | cons hgroup _ ih => exact List.forall_mem_cons.2 ⟨undivided_of_isGroup hgroup, ih⟩

/-- The only delimiters in joined groups are the colons between them. -/
theorem mem_join {groups : List (List Char)} (h : ∀ cs ∈ groups, Undivided cs) {c : Char}
    (hc : c ∈ join groups) : c = ':' ∨ c ∉ delimiters := by
  rcases Endpoint.mem_intercalate hc with hcolon | ⟨cs, hcs, hc⟩
  · exact .inl hcolon
  · exact .inr (h cs hcs c hc)

/-- Eight groups, or seven of which the last is an IPv4 address, have a colon between them. -/
theorem AreGroups.colon_mem {n : Nat} {groups : List (List Char)} (h : AreGroups n groups)
    (hn : 2 < n) : ':' ∈ join groups := by
  cases h with
  | nil => omega
  | address _ => omega
  | @cons n cs groups _ hgroups =>
    cases hgroups with
    | nil => omega
    | address _ | cons _ _ =>
      rw [join, List.intercalate_cons_cons]
      simp

theorem IsIpv6.colon_mem {cs : List Char} (h : IsIpv6 cs) : ':' ∈ cs := by
  cases h with
  | full hgroups => exact hgroups.colon_mem (by decide)
  | short _ _ _ => simp

/-- The only delimiters in an IPv6 address are colons. -/
theorem IsIpv6.mem {cs : List Char} (h : IsIpv6 cs) {c : Char} (hc : c ∈ cs) :
    c = ':' ∨ c ∉ delimiters := by
  cases h with
  | full hgroups => exact mem_join hgroups.undivided hc
  | short hleft hright _ =>
    rcases List.mem_append.1 hc with hc | hc
    · exact mem_join (fun cs hcs => undivided_of_isGroup (hleft cs hcs)) hc
    · rcases List.mem_cons.1 hc with hcolon | hc
      · exact .inl hcolon
      · rcases List.mem_cons.1 hc with hcolon | hc
        · exact .inl hcolon
        · exact mem_join hright.undivided hc

/-! ### Addresses -/

/-- What may stand behind a host: nothing, or a port. -/
def IsRest (rest : List Char) : Prop :=
  rest = [] ∨ ∃ digits, rest = ':' :: digits ∧ digits.all Char.isDigit

theorem IsAddressOf.split {host address : List Char} (h : IsAddressOf host address) :
    IsHost host ∧ ∃ rest, IsRest rest ∧ address = host ++ rest := by
  cases h with
  | bare hhost => exact ⟨hhost, [], .inl rfl, (List.append_nil host).symm⟩
  | port hhost hdigits => exact ⟨hhost, _, .inr ⟨_, rfl, hdigits⟩, rfl⟩

theorem IsRest.mem {rest : List Char} (h : IsRest rest) {c : Char} (hc : c ∈ rest) :
    c = ':' ∨ c ∉ delimiters := by
  rcases h with rfl | ⟨digits, rfl, hdigits⟩
  · cases hc
  · rcases List.mem_cons.1 hc with hcolon | hc
    · exact .inl hcolon
    · exact .inr (sparesDelimiters_isDigit.not_mem (List.all_eq_true.1 hdigits c hc))

/-- A name or an IPv4 address has no delimiters. -/
theorem IsHost.undivided_or {cs : List Char} (h : IsHost cs) : Undivided cs ∨ IsLiteral cs := by
  cases h with
  | name hname => exact .inl (undivided_of_isName hname)
  | address haddress => exact .inl (undivided_of_isAddress haddress)
  | literal hliteral => exact .inr hliteral

/-- Of the delimiters only colons and brackets are in an address. -/
theorem IsAddressOf.mem {host address : List Char} (h : IsAddressOf host address) {c : Char}
    (hc : c ∈ address) : c = ':' ∨ c = '[' ∨ c = ']' ∨ c ∉ delimiters := by
  obtain ⟨hhost, rest, hrest, rfl⟩ := h.split
  rcases List.mem_append.1 hc with hc | hc
  · rcases hhost.undivided_or with hundivided | ⟨inner, hipv6, rfl⟩
    · exact .inr (.inr (.inr (hundivided c hc)))
    · simp only [bracketed, List.mem_append, List.mem_cons, List.not_mem_nil, or_false] at hc
      rcases hc with (hopen | hc) | hclose
      · exact .inr (.inl hopen)
      · exact (hipv6.mem hc).imp_right fun hnot => .inr (.inr hnot)
      · exact .inr (.inr (.inl hclose))
  · exact (hrest.mem hc).imp_right fun hnot => .inr (.inr hnot)

/-! ### The host of an endpoint -/

theorem authority_endpoint {host address : List Char} (h : IsAddressOf host address) :
    authority ("https://".toList ++ address) = address := by
  show address.takeWhile _ = address
  refine List.takeWhile_eq_self_iff.2 fun c hc => ?_
  rcases h.mem hc with rfl | rfl | rfl | hnot
  · decide
  · decide
  · decide
  · have hsub : "/?#".toList <+: delimiters.drop 1 := ⟨['[', ']', '@'], rfl⟩
    rw [Bool.not_eq_true', List.contains_eq_mem, decide_eq_false_iff_not]
    exact fun hmem => hnot (List.mem_of_mem_drop (hsub.subset hmem))

theorem takeWhile_undivided {cs rest : List Char} (h : Undivided cs) (hrest : IsRest rest) :
    (cs ++ rest).takeWhile (· != ':') = cs := by
  have hcs : ∀ c ∈ cs, (c != ':') = true := by
    intro c hc
    rw [bne_iff_ne]
    rintro rfl
    exact h _ hc (by decide)
  rw [List.takeWhile_append_of_pos hcs]
  rcases hrest with rfl | ⟨digits, rfl, _⟩
  · exact List.append_nil cs
  · rw [List.takeWhile_cons_of_neg (by simp), List.append_nil]

theorem takeWhile_append_of_colon_mem {cs rest : List Char} (h : ':' ∈ cs) :
    (cs ++ rest).takeWhile (· != ':') = cs.takeWhile (· != ':') := by
  rw [List.takeWhile_append, if_neg]
  intro hlength
  have hself := (List.takeWhile_prefix _).eq_of_length hlength
  exact absurd (List.takeWhile_eq_self_iff.1 hself ':' h) (by decide)

theorem hostOf_address {host address : List Char} (h : IsAddressOf host address) :
    hostOf address = host := by
  obtain ⟨hhost, rest, hrest, rfl⟩ := h.split
  have hbehind : (host ++ rest).rtakeWhile (· != '@') = host ++ rest := by
    refine List.rtakeWhile_eq_self_iff.2 fun c hc => ?_
    rw [bne_iff_ne]
    rintro rfl
    exact absurd (h.mem hc) (by decide)
  rw [hostOf, hbehind]
  rcases hhost.undivided_or with hundivided | ⟨inner, hipv6, rfl⟩
  · have hhead : (host ++ rest).head? ≠ some '[' := by
      intro hhead
      rcases List.mem_append.1 (List.mem_of_mem_head? hhead) with hmem | hmem
      · exact hundivided _ hmem (by decide)
      · exact absurd (hrest.mem hmem) (by decide)
    rw [if_neg hhead, takeWhile_undivided hundivided hrest]
  · have hinner : ∀ c ∈ '[' :: inner, (c != ']') = true := by
      refine List.forall_mem_cons.2 ⟨by decide, fun c hc => ?_⟩
      rw [bne_iff_ne]
      rintro rfl
      exact absurd (hipv6.mem hc) (by decide)
    have hsplit : bracketed inner ++ rest = ('[' :: inner) ++ ']' :: rest := by
      simp [bracketed]
    have hhead : (bracketed inner ++ rest).head? = some '[' := rfl
    rw [if_pos hhead, hsplit, List.takeWhile_append_of_pos hinner,
      List.takeWhile_cons_of_neg (by decide), List.append_nil]
    rfl

/-- **The host of an endpoint is the host of the address.** -/
theorem host_endpoint {c : Configuration} {name : String}
    (h : IsAddressOf name.toList c.peerAddress.toList) : host c.endpoint = name := by
  rw [host, Configuration.endpoint, String.toList_append, authority_endpoint h, hostOf_address h,
    String.ofList_toList]

end Uri

theorem Connection.of_connect_eq_ok {c : Configuration} {pem : Bytes} {connection : Connection}
    (h : connect c pem = .ok connection) :
    Endpoint.isServerName c.serverName ∧ connection = ⟨c.endpoint, c.serverName⟩ := by
  rw [connect] at h
  cases hcheck : checkCertificate pem with
  | error fault => rw [hcheck] at h; cases h
  | ok _ =>
    rw [hcheck] at h
    change (if _ then _ else if _ then _ else (Except.ok (Connection.mk _ _) : Result _)) = _ at h
    split at h
    · cases h
    split at h
    · cases h
    next hproof =>
      cases h
      simp only [Bool.or_eq_true, Bool.not_eq_true', not_or, Bool.not_eq_false] at hproof
      exact ⟨hproof.2, rfl⟩

namespace Configuration

open Uri

variable {c : Configuration} {host : String}

/-! ### The name that is checked -/

theorem serverName_of_undivided (h : IsAddressOf host.toList c.peerAddress.toList)
    (hundivided : Undivided host.toList) : c.serverName = host := by
  obtain ⟨_, rest, hrest, haddress⟩ := h.split
  rw [serverName, gatewayHost, haddress, takeWhile_undivided hundivided hrest, String.ofList_toList]

/-- Of an IPv6 address the name has the bracket and the first group. -/
theorem serverName_of_literal {cs : List Char} (h : IsAddressOf host.toList c.peerAddress.toList)
    (hipv6 : IsIpv6 cs) (hhost : host.toList = bracketed cs) :
    c.serverName = String.ofList ('[' :: cs.takeWhile (· != ':')) := by
  obtain ⟨_, rest, _, haddress⟩ := h.split
  have hsplit : bracketed cs ++ rest = '[' :: (cs ++ ']' :: rest) := by
    simp [bracketed]
  rw [serverName, gatewayHost, haddress, hhost, hsplit, List.takeWhile_cons_of_pos (by decide),
    takeWhile_append_of_colon_mem hipv6.colon_mem]

/-- There is no colon in the name that is checked, but there is one in every IPv6 address. -/
theorem serverName_ne_of_literal {cs : List Char} (hipv6 : IsIpv6 cs)
    (hhost : host.toList = bracketed cs) : c.serverName ≠ host := by
  rintro rfl
  have hcolon : ':' ∈ c.serverName.toList := by
    rw [hhost, bracketed]
    exact List.mem_append_left _ (List.mem_cons_of_mem _ hipv6.colon_mem)
  rw [serverName, gatewayHost, String.toList_ofList] at hcolon
  exact absurd (List.mem_takeWhile_imp hcolon) (by decide)

theorem serverName_eq_iff (h : IsAddressOf host.toList c.peerAddress.toList) :
    c.serverName = host ↔ ¬ IsLiteral host.toList := by
  constructor
  · rintro hname ⟨cs, hipv6, hhost⟩
    exact serverName_ne_of_literal hipv6 hhost hname
  · intro hnot
    rcases h.split.1.undivided_or with hundivided | hliteral
    · exact serverName_of_undivided h hundivided
    · exact absurd hliteral hnot

/-- What is left of an IPv6 address is the name of no server. -/
theorem exists_connect_eq_error {cs : List Char}
    (h : IsAddressOf host.toList c.peerAddress.toList) (hipv6 : IsIpv6 cs)
    (hhost : host.toList = bracketed cs) (pem : Bytes) :
    ∃ e, Connection.connect c pem = .error e := by
  have hrefused : Endpoint.isServerName c.serverName = false := by
    rw [serverName_of_literal h hipv6 hhost]
    exact Endpoint.isServerName_bracket _
  cases hconnect : Connection.connect c pem with
  | error e => exact ⟨e, rfl⟩
  | ok connection =>
    have hname := (Connection.of_connect_eq_ok hconnect).1
    rw [hrefused] at hname
    cases hname

/-- **The name that is checked is the host that is called, unless this is an IPv6 address.**  The
endpoint always leads to the host of the address.  Of an IPv6 address in brackets the name has the
first bracket and the first group only, and no connection is made. -/
theorem serverName_exact {c : Configuration} {host : String}
    (h : IsAddressOf host.toList c.peerAddress.toList) :
    Uri.host c.endpoint = host ∧
    (c.serverName = host ↔ ¬ IsLiteral host.toList) ∧
    (∀ pem connection, Connection.connect c pem = .ok connection →
      connection.serverName = Uri.host connection.endpoint) ∧
    ∀ cs, IsIpv6 cs → host.toList = bracketed cs →
      c.serverName = String.ofList ('[' :: cs.takeWhile (· != ':')) ∧
      ∀ pem, ∃ e, Connection.connect c pem = .error e := by
  refine ⟨host_endpoint h, serverName_eq_iff h, ?_, fun cs hipv6 hhost =>
    ⟨serverName_of_literal h hipv6 hhost, exists_connect_eq_error h hipv6 hhost⟩⟩
  intro pem connection hconnect
  have hnot : ¬ IsLiteral host.toList := by
    rintro ⟨cs, hipv6, hhost⟩
    obtain ⟨e, herror⟩ := exists_connect_eq_error h hipv6 hhost pem
    rw [herror] at hconnect
    cases hconnect
  obtain ⟨_, rfl⟩ := Connection.of_connect_eq_ok hconnect
  rw [host_endpoint h]
  exact (serverName_eq_iff h).2 hnot

/-- A configuration with an address, all else being empty. -/
def ofAddress (address : String) : Configuration where
  mspId := ""
  mspConfigPath := ""
  peerAddress := address
  chaincodeName := ""
  channelName := ""
  tlsRootCert := none

theorem isIpv6_loopback : IsIpv6 "::1".toList :=
  @IsIpv6.short 1 [] ["1".toList] (List.forall_mem_nil _) (.cons (by decide) .nil) (by decide)

theorem isAddressOf_hostName : IsAddressOf "peer0.org1".toList "peer0.org1:7051".toList :=
  @IsAddressOf.port _ "7051".toList (.name (by decide)) (by decide)

theorem isAddressOf_loopback : IsAddressOf "[::1]".toList "[::1]:7051".toList :=
  @IsAddressOf.port _ "7051".toList (.literal ⟨_, isIpv6_loopback, rfl⟩) (by decide)

theorem serverName_exact_sample :
    IsAddressOf "peer0.org1".toList (ofAddress "peer0.org1:7051").peerAddress.toList ∧
    (ofAddress "peer0.org1:7051").serverName = "peer0.org1" ∧
    Uri.host (ofAddress "peer0.org1:7051").endpoint = "peer0.org1" ∧
    IsAddressOf "[::1]".toList (ofAddress "[::1]:7051").peerAddress.toList ∧
    (ofAddress "[::1]:7051").serverName = "[" ∧
    ∀ pem, ∃ e, Connection.connect (ofAddress "[::1]:7051") pem = .error e := by
  obtain ⟨hdialled, hname, _⟩ := serverName_exact (c := ofAddress "peer0.org1:7051")
    isAddressOf_hostName
  obtain ⟨_, _, _, hliteral⟩ := serverName_exact (c := ofAddress "[::1]:7051") isAddressOf_loopback
  obtain ⟨hcut, hrefused⟩ := hliteral _ isIpv6_loopback rfl
  have hnot : ¬ IsLiteral "peer0.org1".toList := by
    rintro ⟨inner, _, hinner⟩
    have hhead : some 'p' = some '[' := congrArg List.head? hinner
    exact absurd hhead (by decide)
  exact ⟨isAddressOf_hostName, hname.2 hnot, hdialled, isAddressOf_loopback, hcut, hrefused⟩

theorem exists_serverName_ne_host : ∃ (c : Configuration) (host : String),
    IsAddressOf host.toList c.peerAddress.toList ∧ Uri.host c.endpoint = host ∧
      c.serverName ≠ host :=
  ⟨ofAddress "[::1]:7051", "[::1]", isAddressOf_loopback, by decide, by decide⟩

end Configuration

end LedgerGateway
