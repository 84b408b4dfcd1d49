/-
**The direct-LAN listener.**

The agent listens on the private addresses of its host only, on one port, and closes every
connection that does not come from a private address.  What the system answers is a parameter: of
`bind` it is assumed that a listener has the address it was asked for, with a port that is not zero,
and of the clock that a sleep is as long as it was asked to be.

Main definitions:

* `Osprey.isPrivate`, `Osprey.PRIVATE_NETWORKS` — the test of an address, and its networks;
* `Osprey.privateAddresses` — the addresses to listen on, in their order;
* `Osprey.LanListener.bind`, `Osprey.LanListener.Sound` — binding, and what a listener is after it;
* `Osprey.LanListener.acceptTimeout` — the polling loop, with what it has refused;
* `Osprey.advertisable`, `Osprey.serviceInfo`, `Osprey.Advertisement.start` — what is advertised.

Main results:

* `Osprey.isPrivate_iff` — **the masks are the networks**;
* `Osprey.bind_eq_ok_iff` — what a listener is bound to;
* `Osprey.bind_sound` — **one private socket for each address, all on one port, loopback last**;
* `Osprey.acceptTimeout_spec` — **what the polling loop returns, refuses, and when it gives up**;
* `Osprey.start_of_sound` — what is advertised of a listener.
-/

import Mathlib.Data.Char
import Mathlib.Data.List.Destutter
import Mathlib.Data.List.Lex
import Mathlib.Data.List.Sort
import Mathlib.Data.Prod.Lex
import Osprey.Checks
import Osprey.IpText
import Osprey.MetricsText

set_option relaxedAutoImplicit false
set_option autoImplicit false

namespace Osprey

open IpAddress

/-! ### Private addresses -/

def isPrivateV4 (ip : Ipv4Addr) : Bool := ip.isLoopback || ip.isPrivate || ip.isLinkLocal

def isPrivateV6 (ip : Ipv6Addr) : Bool :=
  if ip.isLoopback then true
  else
    let uniqueLocal := (ip.first &&& 0xfe00) == 0xfc00
    let linkLocal := (ip.first &&& 0xffc0) == 0xfe80
    if uniqueLocal || linkLocal then true
    else
      -- on a dual-stack socket an IPv4 peer arrives as a mapped address
      match ip.toIpv4Mapped with
      | some v4 => isPrivateV4 v4
      | none => false

def isPrivate : IpAddr → Bool
  | .v4 v4 => isPrivateV4 v4
  | .v6 v6 => isPrivateV6 v6

/-- `127.0.0.0/8`, `10.0.0.0/8`, `172.16.0.0/12`, `192.168.0.0/16` and `169.254.0.0/16`. -/
def PRIVATE_V4_NETWORKS : List (Ipv4Addr × ℕ) :=
  [(⟨127, 0, 0, 0⟩, 8), (⟨10, 0, 0, 0⟩, 8), (⟨172, 16, 0, 0⟩, 12), (⟨192, 168, 0, 0⟩, 16),
    (⟨169, 254, 0, 0⟩, 16)]

/-- `::1/128`, `fc00::/7` and `fe80::/10`. -/
def PRIVATE_V6_NETWORKS : List (Ipv6Addr × ℕ) :=
  [(⟨[0, 0, 0, 0, 0, 0, 0, 1], rfl⟩, 128), (⟨[0xfc00, 0, 0, 0, 0, 0, 0, 0], rfl⟩, 7),
    (⟨[0xfe80, 0, 0, 0, 0, 0, 0, 0], rfl⟩, 10)]

/-- The private networks of both families, and those of IPv4 again among the mapped addresses. -/
def PRIVATE_NETWORKS : List Network :=
  let v4 := PRIVATE_V4_NETWORKS.map fun network => ⟨.v4 network.1, network.2⟩
  v4 ++ PRIVATE_V6_NETWORKS.map (fun network => ⟨.v6 network.1, network.2⟩) ++ v4.map Network.mapped

theorem isPrivateV4_iff (ip : Ipv4Addr) :
    isPrivateV4 ip = true
      ↔ ∃ network ∈ PRIVATE_V4_NETWORKS, IpAddr.v4 ip ∈ (⟨.v4 network.1, network.2⟩ : Network) := by
  have ha := ip.a.toNat_lt
  have hb := ip.b.toNat_lt
  have hc := ip.c.toNat_lt
  have hd := ip.d.toNat_lt
  simp only [PRIVATE_V4_NETWORKS, List.exists_mem_cons_iff, List.not_mem_nil, false_and,
    exists_false, or_false, Ipv4Addr.mem_iff, Ipv4Addr.toNat_eq, isPrivateV4, Ipv4Addr.isLoopback,
    Ipv4Addr.isPrivate, Ipv4Addr.isLinkLocal, Bool.or_eq_true, Bool.and_eq_true, beq_iff_eq,
    decide_eq_true_eq, ← UInt8.toNat_inj, UInt8.le_iff_toNat_le, UInt8.reduceToNat]
  norm_num
  omega

theorem isPrivateV6_iff (ip : Ipv6Addr) :
    isPrivateV6 ip = true
      ↔ (∃ network ∈ PRIVATE_V6_NETWORKS, IpAddr.v6 ip ∈ (⟨.v6 network.1, network.2⟩ : Network))
        ∨ ∃ v4, ip = v4.toIpv6Mapped ∧ isPrivateV4 v4 = true := by
  have hunique : (ip.first &&& 0xfe00) = 0xfc00
      ↔ ip.first.toNat / 2 ^ 9 = (0xfc00 : UInt16).toNat / 2 ^ 9 := land_eq_iff rfl rfl
  have hlink : (ip.first &&& 0xffc0) = 0xfe80
      ↔ ip.first.toNat / 2 ^ 6 = (0xfe80 : UInt16).toNat / 2 ^ 6 := land_eq_iff rfl rfl
  have hloopback : ip.isLoopback = true ↔ ip = ⟨[0, 0, 0, 0, 0, 0, 0, 1], rfl⟩ := by
    rw [Ipv6Addr.isLoopback, beq_iff_eq, Ipv6Addr.ext_iff_segments]
  have hmapped : (match ip.toIpv4Mapped with | some v4 => isPrivateV4 v4 | none => false) = true
      ↔ ∃ v4, ip = v4.toIpv6Mapped ∧ isPrivateV4 v4 = true := by
    simp only [← Ipv6Addr.toIpv4Mapped_eq_some_iff]
    cases ip.toIpv4Mapped <;> simp
  have hnetworks : (∃ network ∈ PRIVATE_V6_NETWORKS,
        IpAddr.v6 ip ∈ (⟨.v6 network.1, network.2⟩ : Network))
      ↔ ip.isLoopback = true ∨ (ip.first &&& 0xfe00) = 0xfc00 ∨ (ip.first &&& 0xffc0) = 0xfe80 := by
    rw [hloopback, hunique, hlink]
    simp only [PRIVATE_V6_NETWORKS, List.exists_mem_cons_iff, List.not_mem_nil, false_and,
      exists_false, or_false]
    exact or_congr (ip.mem_host_iff _) (or_congr (ip.mem_iff_first _ (k := 9) (by decide))
      (ip.mem_iff_first _ (k := 6) (by decide)))
  rw [hnetworks, ← hmapped, isPrivateV6]
  by_cases hl : ip.isLoopback = true
  · simp [hl]
  · by_cases hu : (ip.first &&& 0xfe00) = 0xfc00
    · simp [hu]
    · by_cases hf : (ip.first &&& 0xffc0) = 0xfe80
      · simp [hf]
      · simp [hl, hu, hf]

/-- The masks are the networks. -/
theorem isPrivate_iff (ip : IpAddr) :
    isPrivate ip = true ↔ ∃ network ∈ PRIVATE_NETWORKS, ip ∈ network := by
  simp only [PRIVATE_NETWORKS, List.mem_append, or_and_right, exists_or, List.mem_map,
    exists_exists_and_eq_and]
  cases ip with
  | v4 ip =>
      refine (isPrivateV4_iff ip).trans ⟨fun h => .inl (.inl h), ?_⟩
      rintro ((h | ⟨network, -, h⟩) | ⟨network, -, h⟩)
      · exact h
      · exact absurd h (Network.not_v4_mem_v6 _ _ _)
      · exact absurd h (Network.not_v4_mem_v6 _ _ _)
  | v6 ip =>
      have hmapped : (∃ v4, ip = v4.toIpv6Mapped ∧ isPrivateV4 v4 = true)
          ↔ ∃ network ∈ PRIVATE_V4_NETWORKS,
            IpAddr.v6 ip ∈ (⟨.v4 network.1, network.2⟩ : Network).mapped := by
        have hbits : ∀ network ∈ PRIVATE_V4_NETWORKS, network.2 ≤ 32 := by decide
        constructor
        · rintro ⟨v4, rfl, h⟩
          obtain ⟨network, hnetwork, hmem⟩ := (isPrivateV4_iff v4).mp h
          exact ⟨network, hnetwork, (Network.mem_mapped (hbits network hnetwork) _).mpr
            ⟨v4, rfl, hmem⟩⟩
        · rintro ⟨network, hnetwork, h⟩
          obtain ⟨v4, rfl, hmem⟩ := (Network.mem_mapped (hbits network hnetwork) _).mp h
          exact ⟨v4, rfl, (isPrivateV4_iff v4).mpr ⟨network, hnetwork, hmem⟩⟩
      refine (isPrivateV6_iff ip).trans ?_
      rw [hmapped]
      constructor
      · rintro (h | h)
        · exact .inl (.inr h)
        · exact .inr h
      · rintro ((⟨network, -, h⟩ | h) | h)
        · exact absurd h (Network.not_v6_mem_v4 _ _ _)
        · exact .inl h
        · exact .inr h

/-! ### The addresses to listen on -/

/-- Loopback last, and otherwise by text. -/
def sortKey (ip : IpAddr) : Bool ×ₗ List Char := toLex (ip.isLoopback, ip.text)

/-- The private addresses among those of the interfaces, sorted, without repetitions. -/
def privateAddresses (interfaces : List IpAddr) : List IpAddr :=
  ((interfaces.filter isPrivate).insertionSort fun ip other => sortKey ip ≤ sortKey other).destutter
    (· ≠ ·)

theorem sortKey_injective : Function.Injective sortKey := by
  intro ip other h
  exact IpAddr.text_injective (Prod.mk.inj (toLex_inj.mp h)).2

theorem mem_destutter' {α : Type} [DecidableEq α] {a x : α} {items : List α} :
    x ∈ items.destutter' (· ≠ ·) a ↔ x ∈ a :: items := by
  induction items generalizing a with
  | nil => simp
  | cons b items ih =>
      by_cases h : a ≠ b
      · rw [List.destutter'_cons_pos _ h, List.mem_cons, ih]
        exact List.mem_cons.symm
      · rw [List.destutter'_cons_neg _ h, ih, not_not.mp h]
        simp

/-- Only repetitions are dropped. -/
theorem mem_destutter {α : Type} [DecidableEq α] {x : α} {items : List α} :
    x ∈ items.destutter (· ≠ ·) ↔ x ∈ items := by
  cases items with
  | nil => simp
  | cons a items => exact mem_destutter'

theorem mem_privateAddresses {interfaces : List IpAddr} {ip : IpAddr} :
    ip ∈ privateAddresses interfaces ↔ ip ∈ interfaces ∧ isPrivate ip = true := by
  rw [privateAddresses, mem_destutter, List.mem_insertionSort, List.mem_filter]

/-- The addresses ascend. -/
theorem pairwise_privateAddresses (interfaces : List IpAddr) :
    (privateAddresses interfaces).Pairwise fun ip other => sortKey ip < sortKey other := by
  have hsorted : ((interfaces.filter isPrivate).insertionSort
      fun ip other => sortKey ip ≤ sortKey other).Pairwise
        fun ip other => sortKey ip ≤ sortKey other := by
    have : Std.Total fun ip other => sortKey ip ≤ sortKey other := ⟨fun _ _ => le_total _ _⟩
    have : IsTrans IpAddr fun ip other => sortKey ip ≤ sortKey other := ⟨fun _ _ _ => le_trans⟩
    exact List.pairwise_insertionSort _ _
  have hne := List.isChain_destutter (R := (· ≠ ·)) ((interfaces.filter isPrivate).insertionSort
    fun ip other => sortKey ip ≤ sortKey other)
  have hle := (hsorted.sublist (List.destutter_sublist (· ≠ ·) _)).isChain
  have : Trans (fun ip other => sortKey ip < sortKey other)
      (fun ip other => sortKey ip < sortKey other) fun ip other => sortKey ip < sortKey other :=
    ⟨fun h h' => lt_trans h h'⟩
  rw [List.isChain_iff_forall_rel_of_append_cons_cons] at hle hne
  -- neighbours are in order and differ, so their keys do
  refine List.isChain_iff_pairwise.mp
    (List.isChain_iff_forall_rel_of_append_cons_cons.mpr fun ip other before after h => ?_)
  exact lt_of_le_of_ne (hle h) fun heq => hne h (sortKey_injective heq)

theorem loopback_of_sortKey_lt {ip other : IpAddr} (h : sortKey ip < sortKey other)
    (hip : ip.isLoopback = true) : other.isLoopback = true := by
  rcases Prod.Lex.toLex_lt_toLex.mp h with hlt | ⟨heq, -⟩
  · simp only [hip] at hlt
    exact absurd hlt (by cases other.isLoopback <;> decide)
  · exact heq.symm.trans hip

/-! ### Binding -/

/-- What binding and accepting can fail with. -/
inductive LanError
  | enumerate
  | noPrivateAddress
  | localAddr (bindTo : SocketAddr)
  | nonBlocking (actual : SocketAddr)
  | noneBound (port : UInt16)
  | blocking (peer : SocketAddr)
  | nodelay (peer : SocketAddr)
  | accept (listener : SocketAddr)
  deriving DecidableEq, Repr

def LanError.message : LanError → List Char
  | .enumerate => "could not enumerate network interfaces".toList
  | .noPrivateAddress => ("no private or link-local address is available to listen on; " ++
      "the agent will not bind a publicly routable address").toList
  | .localAddr bindTo => "could not read local address of ".toList ++ bindTo.text
  | .nonBlocking actual => "could not put the listener on ".toList ++ actual.text
      ++ " into non-blocking mode".toList
  | .noneBound port => "could not bind any private address on port ".toList ++ decimal port.toNat
  | .blocking peer => "could not put the socket from ".toList ++ peer.text
      ++ " into blocking mode".toList
  | .nodelay peer => "could not disable Nagle for ".toList ++ peer.text
  | .accept listener => "accept failed on Ok(".toList ++ listener.text ++ ")".toList

/-- What the system answers to `TcpListener::bind`, and then for `local_addr` and
`set_nonblocking`. -/
inductive BindAnswer
  | refused
  | bound (localAddr : Option SocketAddr) (nonblocking : Bool)
  deriving DecidableEq, Repr

/-- The sockets, by the addresses that they are bound to. -/
structure LanListener where
  addrs : List SocketAddr
  deriving DecidableEq, Repr

/-- What the loop over the addresses carries along. -/
structure Binding where
  chosenPort : UInt16
  addrs : List SocketAddr

variable (system : SocketAddr → BindAnswer)

/-- One address: skipped if the system refuses it. -/
def bindOne (binding : Binding) (ip : IpAddr) : Except LanError Binding :=
  let bindTo := SocketAddr.new ip binding.chosenPort
  match system bindTo with
  | .bound (some actual) true =>
      .ok ⟨if binding.chosenPort = 0 then actual.port else binding.chosenPort,
        binding.addrs ++ [actual]⟩
  | .bound (some actual) false => .error (.nonBlocking actual)
  | .bound none _ => .error (.localAddr bindTo)
  | .refused => .ok binding

/-- Bind every private address on `port`; if that is zero, on the port that the first one gets. -/
def LanListener.bind (interfaces : Option (List IpAddr)) (port : UInt16) :
    Except LanError LanListener :=
  match interfaces with
  | none => .error .enumerate
  | some interfaces =>
      let candidates := privateAddresses interfaces
      if candidates = [] then .error .noPrivateAddress
      else
        match candidates.foldlM (bindOne system) ⟨port, []⟩ with
        | .error e => .error e
        | .ok binding =>
            if binding.addrs = [] then .error (.noneBound port) else .ok ⟨binding.addrs⟩

/-- What is assumed of the system: a listener has the address it was asked for, and the port, which
is the system's choice if the one it was asked for is zero. -/
def BindsAsAsked : Prop :=
  ∀ bindTo actual nonblocking, system bindTo = .bound (some actual) nonblocking →
    actual.ip = bindTo.ip ∧ actual.port ≠ 0 ∧ (bindTo.port ≠ 0 → actual.port = bindTo.port)

/-- The socket of an address on a port, if there is one. -/
def socketOn (port : UInt16) (ip : IpAddr) : Option SocketAddr :=
  match system (.new ip port) with
  | .bound (some actual) true => some actual
  | _ => none

/-- The system refuses an address on a port, or gives a socket that can be used. -/
def Settled (port : UInt16) (ip : IpAddr) : Prop :=
  system (.new ip port) = .refused ∨ (socketOn system port ip).isSome

variable {system}

theorem bindOne_eq_ok_iff {binding next : Binding} {ip : IpAddr} :
    bindOne system binding ip = .ok next
      ↔ (system (.new ip binding.chosenPort) = .refused ∧ next = binding) ∨
        ∃ actual, socketOn system binding.chosenPort ip = some actual ∧
          next = ⟨if binding.chosenPort = 0 then actual.port else binding.chosenPort,
            binding.addrs ++ [actual]⟩ := by
  cases h : system (.new ip binding.chosenPort) with
  | refused =>
      simp only [bindOne, socketOn, h, true_and, reduceCtorEq, false_and, exists_false, or_false,
        Except.ok.injEq]
      exact eq_comm
  | bound localAddr nonblocking =>
      cases localAddr with
      | none => simp [bindOne, socketOn, h]
      | some actual =>
          cases nonblocking with
          | false => simp [bindOne, socketOn, h]
          | true =>
              simp only [bindOne, socketOn, h, Except.ok.injEq, reduceCtorEq, false_and,
                Option.some.injEq, false_or, exists_eq_left']
              exact eq_comm

/-- The rest of the addresses, once there is a port. -/
theorem bindRest_eq_ok_iff {candidates : List IpAddr} {port : UInt16} (hport : port ≠ 0)
    {addrs : List SocketAddr} {binding : Binding} :
    candidates.foldlM (bindOne system) ⟨port, addrs⟩ = .ok binding
      ↔ (∀ ip ∈ candidates, Settled system port ip) ∧
        binding = ⟨port, addrs ++ candidates.filterMap (socketOn system port)⟩ := by
  induction candidates generalizing addrs with
  | nil =>
      rw [List.foldlM_nil, Checks.pure_eq_ok]
      simp [eq_comm]
  | cons ip candidates ih =>
      rw [List.foldlM_cons, Checks.bind_eq_ok]
      simp only [bindOne_eq_ok_iff, hport, if_false, List.mem_cons, forall_eq_or_imp, Settled]
      constructor
      · rintro ⟨next, ⟨hrefused, rfl⟩ | ⟨actual, hactual, rfl⟩, hrest⟩
        · obtain ⟨hall, rfl⟩ := ih.mp hrest
          have hnone : socketOn system port ip = none := by simp [socketOn, hrefused]
          exact ⟨⟨.inl hrefused, hall⟩, by rw [List.filterMap_cons_none hnone]⟩
        · obtain ⟨hall, rfl⟩ := ih.mp hrest
          refine ⟨⟨.inr (by simp [hactual]), hall⟩, ?_⟩
          rw [List.filterMap_cons_some hactual, List.append_assoc, List.singleton_append]
      · rintro ⟨⟨hip, hall⟩, rfl⟩
        rcases hip with hrefused | hsome
        · have hnone : socketOn system port ip = none := by simp [socketOn, hrefused]
          exact ⟨_, .inl ⟨hrefused, rfl⟩, ih.mpr ⟨hall, by rw [List.filterMap_cons_none hnone]⟩⟩
        · obtain ⟨actual, hactual⟩ := Option.isSome_iff_exists.mp hsome
          refine ⟨_, .inr ⟨actual, hactual, rfl⟩, ih.mpr ⟨hall, ?_⟩⟩
          rw [List.filterMap_cons_some hactual, List.append_assoc, List.singleton_append]

/-- All the addresses: those before the first that can be bound are refused, and the port of the
first is that of the rest. -/
theorem bindAll_eq_ok_iff (hsystem : BindsAsAsked system) {candidates : List IpAddr} {port : UInt16}
    {binding : Binding} :
    (candidates.foldlM (bindOne system) ⟨port, []⟩ = .ok binding ∧ binding.addrs ≠ [])
      ↔ ∃ before ip rest actual, candidates = before ++ ip :: rest ∧
        (∀ c ∈ before, system (.new c port) = .refused) ∧ socketOn system port ip = some actual ∧
        (∀ c ∈ rest, Settled system actual.port c) ∧
        binding = ⟨actual.port, actual :: rest.filterMap (socketOn system actual.port)⟩ := by
  have hport : ∀ {ip : IpAddr} {actual : SocketAddr}, socketOn system port ip = some actual →
      actual.port ≠ 0 ∧ (if port = 0 then actual.port else port) = actual.port := by
    intro ip actual h
    have hbound : system (.new ip port) = .bound (some actual) true := by
      unfold socketOn at h
      split at h
      · rename_i heq
        rw [heq, Option.some.inj h]
      · cases h
    obtain ⟨-, hne, heq⟩ := hsystem _ _ _ hbound
    refine ⟨hne, ?_⟩
    split
    · rfl
    · rename_i hp
      rw [heq (by simpa using hp), SocketAddr.new_port]
  induction candidates with
  | nil =>
      simp only [List.foldlM_nil, Checks.pure_eq_ok, List.nil_eq, List.append_eq_nil_iff,
        reduceCtorEq, and_false, false_and, exists_false, iff_false, not_and, not_not]
      rintro rfl
      rfl
  | cons c candidates ih =>
      rw [List.foldlM_cons, Checks.bind_eq_ok]
      simp only [bindOne_eq_ok_iff]
      constructor
      · rintro ⟨⟨next, ⟨hrefused, rfl⟩ | ⟨actual, hactual, rfl⟩, hrest⟩, hne⟩
        · obtain ⟨before, ip, rest, actual, rfl, hbefore, hrest⟩ := ih.mp ⟨hrest, hne⟩
          exact ⟨c :: before, ip, rest, actual, rfl, List.forall_mem_cons.mpr ⟨hrefused, hbefore⟩,
            hrest⟩
        · rw [(hport hactual).2, List.nil_append, bindRest_eq_ok_iff (hport hactual).1] at hrest
          exact ⟨[], c, candidates, actual, rfl, by simp, hactual, hrest⟩
      · rintro ⟨before, ip, rest, actual, hsplit, hbefore, hactual, hrest, rfl⟩
        cases before with
        | nil =>
            obtain ⟨rfl, rfl⟩ := List.cons_eq_cons.mp hsplit
            refine ⟨⟨_, .inr ⟨actual, hactual, rfl⟩, ?_⟩, by simp⟩
            rw [(hport hactual).2, List.nil_append, bindRest_eq_ok_iff (hport hactual).1]
            exact ⟨hrest, rfl⟩
        | cons b before =>
            obtain ⟨rfl, rfl⟩ := List.cons_eq_cons.mp hsplit
            have hfold := ih.mpr ⟨before, ip, rest, actual, rfl,
              fun other hother => hbefore other (List.mem_cons_of_mem _ hother), hactual, hrest,
              rfl⟩
            exact ⟨⟨_, .inl ⟨hbefore c List.mem_cons_self, rfl⟩, hfold.1⟩, hfold.2⟩

/-- What a listener is bound to. -/
theorem bind_eq_ok_iff (hsystem : BindsAsAsked system) {interfaces : Option (List IpAddr)}
    {port : UInt16} {listener : LanListener} :
    LanListener.bind system interfaces port = .ok listener
      ↔ ∃ ips before ip rest actual, interfaces = some ips ∧
        privateAddresses ips = before ++ ip :: rest ∧
        (∀ c ∈ before, system (.new c port) = .refused) ∧ socketOn system port ip = some actual ∧
        (∀ c ∈ rest, Settled system actual.port c) ∧
        listener.addrs = actual :: rest.filterMap (socketOn system actual.port) := by
  cases interfaces with
  | none => simp [LanListener.bind]
  | some ips =>
      have hrun : LanListener.bind system (some ips) port = .ok listener
          ↔ ∃ binding, ((privateAddresses ips).foldlM (bindOne system) ⟨port, []⟩ = .ok binding ∧
            binding.addrs ≠ []) ∧ listener = ⟨binding.addrs⟩ := by
        unfold LanListener.bind
        by_cases hnil : privateAddresses ips = []
        · simp only [hnil, if_true, reduceCtorEq, List.foldlM_nil, Checks.pure_eq_ok, false_iff]
          rintro ⟨binding, ⟨rfl, hne⟩, -⟩
          exact hne rfl
        · simp only [hnil, if_false]
          cases (privateAddresses ips).foldlM (bindOne system) ⟨port, []⟩ with
          | error e => simp
          | ok binding =>
              by_cases haddrs : binding.addrs = []
              · simp [haddrs]
              · simp [haddrs, eq_comm]
      rw [hrun]
      constructor
      · rintro ⟨binding, hbinding, rfl⟩
        obtain ⟨before, ip, rest, actual, hsplit, hbefore, hactual, hrest, rfl⟩ :=
          (bindAll_eq_ok_iff hsystem).mp hbinding
        exact ⟨ips, before, ip, rest, actual, rfl, hsplit, hbefore, hactual, hrest, rfl⟩
      · rintro ⟨_, before, ip, rest, actual, hips, hsplit, hbefore, hactual, hrest, haddrs⟩
        cases hips
        refine ⟨⟨actual.port, actual :: rest.filterMap (socketOn system actual.port)⟩,
          (bindAll_eq_ok_iff hsystem).mpr
            ⟨before, ip, rest, actual, hsplit, hbefore, hactual, hrest, rfl⟩, ?_⟩
        cases listener
        exact congrArg LanListener.mk haddrs

/-- What a listener is: private sockets, at most one for each address, all on one port, and those of
loopback last. -/
structure LanListener.Sound (listener : LanListener) : Prop where
  ne_nil : listener.addrs ≠ []
  isPrivate : ∀ addr ∈ listener.addrs, Osprey.isPrivate addr.ip = true
  onePort : ∃ port ≠ 0, ∀ addr ∈ listener.addrs, addr.port = port
  nodup : (listener.addrs.map SocketAddr.ip).Nodup
  loopbackLast : listener.addrs.Pairwise fun addr other =>
    addr.ip.isLoopback = true → other.ip.isLoopback = true

theorem socketOn_eq_some {port : UInt16} {ip : IpAddr} {actual : SocketAddr}
    (h : socketOn system port ip = some actual) :
    system (.new ip port) = .bound (some actual) true := by
  unfold socketOn at h
  split at h
  · rename_i heq
    rw [heq, Option.some.inj h]
  · cases h

/-- The addresses of the sockets are those that were asked for. -/
theorem map_ip_filterMap (hsystem : BindsAsAsked system) (port : UInt16) (ips : List IpAddr) :
    ((ips.filterMap (socketOn system port)).map SocketAddr.ip).Sublist ips := by
  induction ips with
  | nil => exact List.Sublist.slnil
  | cons ip ips ih =>
      cases h : socketOn system port ip with
      | none =>
          rw [List.filterMap_cons_none h]
          exact ih.cons ip
      | some actual =>
          have hip := (hsystem _ _ _ (socketOn_eq_some h)).1
          rw [SocketAddr.new_ip] at hip
          rw [List.filterMap_cons_some h, List.map_cons, hip]
          exact ih.cons_cons ip

/-- The sockets are of private addresses of the host, in their order. -/
theorem sublist_of_bind (hsystem : BindsAsAsked system) {interfaces : Option (List IpAddr)}
    {port : UInt16} {listener : LanListener}
    (h : LanListener.bind system interfaces port = .ok listener) :
    ∃ ips, interfaces = some ips ∧
      (listener.addrs.map SocketAddr.ip).Sublist (privateAddresses ips) := by
  obtain ⟨ips, before, ip, rest, actual, rfl, hsplit, -, hactual, -, haddrs⟩ :=
    (bind_eq_ok_iff hsystem).mp h
  have hip := (hsystem _ _ _ (socketOn_eq_some hactual)).1
  rw [SocketAddr.new_ip] at hip
  refine ⟨ips, rfl, ?_⟩
  rw [haddrs, hsplit, List.map_cons, hip]
  exact ((map_ip_filterMap hsystem actual.port rest).cons_cons ip).trans
    (List.sublist_append_right _ _)

/-- The sockets have one port, which is the one that was asked for if there was one. -/
theorem port_of_bind (hsystem : BindsAsAsked system) {interfaces : Option (List IpAddr)}
    {port : UInt16} {listener : LanListener}
    (h : LanListener.bind system interfaces port = .ok listener) :
    ∃ actual ≠ 0, (port ≠ 0 → actual = port) ∧ ∀ addr ∈ listener.addrs, addr.port = actual := by
  obtain ⟨ips, before, ip, rest, actual, rfl, -, -, hactual, -, haddrs⟩ :=
    (bind_eq_ok_iff hsystem).mp h
  obtain ⟨-, hne, hport⟩ := hsystem _ _ _ (socketOn_eq_some hactual)
  rw [SocketAddr.new_port] at hport
  refine ⟨actual.port, hne, hport, fun addr haddr => ?_⟩
  rw [haddrs] at haddr
  rcases List.mem_cons.mp haddr with rfl | haddr
  · rfl
  · obtain ⟨c, -, hc⟩ := List.mem_filterMap.mp haddr
    have hasked := (hsystem _ _ _ (socketOn_eq_some hc)).2.2
    rw [SocketAddr.new_port] at hasked
    exact hasked hne

theorem sound_of_bind (hsystem : BindsAsAsked system) {interfaces : Option (List IpAddr)}
    {port : UInt16} {listener : LanListener}
    (h : LanListener.bind system interfaces port = .ok listener) : listener.Sound := by
  obtain ⟨ips, -, hsub⟩ := sublist_of_bind hsystem h
  obtain ⟨actual, hne, -, hport⟩ := port_of_bind hsystem h
  have hpairwise := (pairwise_privateAddresses ips).sublist hsub
  refine ⟨?_, fun addr haddr => ?_, ⟨actual, hne, hport⟩, ?_, ?_⟩
  · obtain ⟨_, _, _, _, _, _, _, _, _, _, haddrs⟩ := (bind_eq_ok_iff hsystem).mp h
    rw [haddrs]
    exact List.cons_ne_nil _ _
  · exact (mem_privateAddresses.mp (hsub.subset (List.mem_map_of_mem haddr))).2
  · exact hpairwise.imp fun hlt heq => hlt.ne (congrArg sortKey heq)
  · exact (List.pairwise_map.mp hpairwise).imp loopback_of_sortKey_lt

/-- One private socket for each address, all on one port, loopback last; none is left out but those
that the system refuses. -/
theorem bind_sound (hsystem : BindsAsAsked system) {interfaces : Option (List IpAddr)}
    {port : UInt16} {listener : LanListener}
    (h : LanListener.bind system interfaces port = .ok listener) :
    listener.Sound ∧ (port ≠ 0 → ∀ addr ∈ listener.addrs, addr.port = port) ∧
      ∃ ips, interfaces = some ips ∧
        (listener.addrs.map SocketAddr.ip).Sublist (privateAddresses ips) ∧
        ∀ ip ∈ ips, isPrivate ip = true → ip ∉ listener.addrs.map SocketAddr.ip →
          ∃ tried, (tried = port ∨ ∀ addr ∈ listener.addrs, addr.port = tried) ∧
            system (.new ip tried) = .refused := by
  obtain ⟨actual, -, hasked, hport⟩ := port_of_bind hsystem h
  obtain ⟨ips, hips, hsub⟩ := sublist_of_bind hsystem h
  refine ⟨sound_of_bind hsystem h, fun hne addr haddr => (hport addr haddr).trans (hasked hne), ips,
    hips, hsub, fun c hc hprivate hnot => ?_⟩
  obtain ⟨_, before, ip, rest, first, heq, hsplit, hbefore, hfirst, hrest, haddrs⟩ :=
    (bind_eq_ok_iff hsystem).mp h
  obtain rfl := Option.some.inj (hips.symm.trans heq)
  have hmem := mem_privateAddresses.mpr ⟨hc, hprivate⟩
  rw [hsplit] at hmem
  rcases List.mem_append.mp hmem with hmem | hmem
  · exact ⟨port, .inl rfl, hbefore c hmem⟩
  · have hfirstPort : first.port = actual := hport first (haddrs ▸ List.mem_cons_self)
    refine ⟨actual, .inr hport, ?_⟩
    rcases List.mem_cons.mp hmem with rfl | hmem
    · have hip := (hsystem _ _ _ (socketOn_eq_some hfirst)).1
      rw [SocketAddr.new_ip] at hip
      exact absurd (List.mem_map.mpr ⟨first, haddrs ▸ List.mem_cons_self, hip⟩) hnot
    · rw [← hfirstPort]
      refine (hrest c hmem).resolve_right fun hsome => hnot ?_
      obtain ⟨socket, hsocket⟩ := Option.isSome_iff_exists.mp hsome
      have hip := (hsystem _ _ _ (socketOn_eq_some hsocket)).1
      rw [SocketAddr.new_ip] at hip
      refine List.mem_map.mpr ⟨socket, ?_, hip⟩
      rw [haddrs]
      exact List.mem_cons_of_mem _ (List.mem_filterMap.mpr ⟨c, hmem, hsocket⟩)

/-- A system that lets everything be bound. -/
def toySystem (bindTo : SocketAddr) : BindAnswer :=
  .bound (some (.new bindTo.ip (if bindTo.port = 0 then 49152 else bindTo.port))) true

theorem toySystem_bindsAsAsked : BindsAsAsked toySystem := by
  intro bindTo actual nonblocking h
  obtain ⟨hactual, -⟩ := BindAnswer.bound.inj h
  obtain rfl := Option.some.inj hactual
  rw [SocketAddr.new_ip, SocketAddr.new_port]
  by_cases hport : bindTo.port = 0
  · simp [hport]
  · simp [hport]

/-- A host with a public address. -/
def toyInterfaces : List IpAddr :=
  [.v4 ⟨127, 0, 0, 1⟩, .v4 ⟨192, 168, 1, 20⟩, .v4 ⟨8, 8, 8, 8⟩, .v4 ⟨10, 0, 0, 5⟩]

def toyListener : LanListener :=
  ⟨[.v4 ⟨10, 0, 0, 5⟩ 49152, .v4 ⟨192, 168, 1, 20⟩ 49152, .v4 ⟨127, 0, 0, 1⟩ 49152]⟩

theorem bind_toySystem : LanListener.bind toySystem (some toyInterfaces) 0 = .ok toyListener := by
  have hcandidates : privateAddresses toyInterfaces
      = [.v4 ⟨10, 0, 0, 5⟩, .v4 ⟨192, 168, 1, 20⟩, .v4 ⟨127, 0, 0, 1⟩] := by decide
  unfold LanListener.bind
  simp only [hcandidates]
  rfl

theorem bind_sound_small :
    toyListener.Sound ∧
      ((0 : UInt16) ≠ 0 → ∀ addr ∈ toyListener.addrs, addr.port = 0) ∧
      ∃ ips, some toyInterfaces = some ips ∧
        (toyListener.addrs.map SocketAddr.ip).Sublist (privateAddresses ips) ∧
        ∀ ip ∈ ips, isPrivate ip = true → ip ∉ toyListener.addrs.map SocketAddr.ip →
          ∃ tried, (tried = 0 ∨ ∀ addr ∈ toyListener.addrs, addr.port = tried) ∧
            toySystem (.new ip tried) = .refused :=
  bind_sound toySystem_bindsAsAsked bind_toySystem

/-! ### Accepting -/

variable {σ : Type}

/-- What `accept` of a listener answers; with a connection, whether the socket takes its options. -/
inductive AcceptAnswer (σ : Type)
  | connection (stream : σ) (peer : SocketAddr) (blocking nodelay : Bool)
  | wouldBlock
  | failed

/-- What one pass over the listeners has refused, and what it ended with. -/
structure Sweep (σ : Type) where
  refused : List σ
  outcome : Option (Except LanError (σ × SocketAddr))

def sweep (accept : SocketAddr → AcceptAnswer σ) : List SocketAddr → Sweep σ
  | [] => ⟨[], none⟩
  | listener :: rest =>
      match accept listener with
      | .connection stream peer blocking nodelay =>
          if isPrivate peer.ip = false then
            let next := sweep accept rest
            ⟨stream :: next.refused, next.outcome⟩
          else if blocking = false then ⟨[], some (.error (.blocking peer))⟩
          else if nodelay = false then ⟨[], some (.error (.nodelay peer))⟩
          else ⟨[], some (.ok (stream, peer))⟩
      | .wouldBlock => sweep accept rest
      | .failed => ⟨[], some (.error (.accept listener))⟩

/-- How long a pass waits for the next, in nanoseconds. -/
def POLL_INTERVAL : ℕ := 25 * 1000000

/-- What the listeners answer in each pass, and the clock at the end of it. -/
structure Polling (σ : Type) where
  accept : ℕ → SocketAddr → AcceptAnswer σ
  now : ℕ → ℕ

/-- What the loop returns, and the connections it has closed. -/
structure Polled (σ : Type) where
  result : Except LanError (Option (σ × SocketAddr))
  refused : List σ

/-- The loop from pass `k` on, with fuel. -/
def acceptRounds (polling : Polling σ) (addrs : List SocketAddr) (deadline : ℕ) :
    ℕ → ℕ → List σ → Option (Polled σ)
  | 0, _, _ => none
  | fuel + 1, k, refused =>
      let pass := sweep (polling.accept k) addrs
      let refused := refused ++ pass.refused
      match pass.outcome with
      | some outcome => some ⟨outcome.map some, refused⟩
      | none =>
          if deadline ≤ polling.now k then some ⟨.ok none, refused⟩
          else acceptRounds polling addrs deadline fuel (k + 1) refused

/-- Wait up to `timeout` for a connection from a private peer. -/
def LanListener.acceptTimeout (listener : LanListener) (polling : Polling σ)
    (start timeout fuel : ℕ) : Option (Polled σ) :=
  acceptRounds polling listener.addrs (start + timeout) fuel 0 []

/-- A sleep is as long as it was asked to be. -/
def Polling.Sleeps (polling : Polling σ) (deadline : ℕ) : Prop :=
  ∀ k, polling.now k + min POLL_INTERVAL (deadline - polling.now k) ≤ polling.now (k + 1)

/-- What an answer of a listener decides; polling goes on if it is nothing. -/
def AcceptAnswer.decision (listener : SocketAddr) :
    AcceptAnswer σ → Option (Except LanError (σ × SocketAddr))
  | .connection stream peer blocking nodelay =>
      if isPrivate peer.ip = false then none
      else if blocking = false then some (.error (.blocking peer))
      else if nodelay = false then some (.error (.nodelay peer))
      else some (.ok (stream, peer))
  | .wouldBlock => none
  | .failed => some (.error (.accept listener))

/-- The connection of an answer, if it does not come from a private address. -/
def AcceptAnswer.intruder : AcceptAnswer σ → Option σ
  | .connection stream peer _ _ => if isPrivate peer.ip = false then some stream else none
  | .wouldBlock => none
  | .failed => none

/-- The answers of one pass, with the listeners they are of. -/
def passAnswers (accept : SocketAddr → AcceptAnswer σ) (addrs : List SocketAddr) :
    List (SocketAddr × AcceptAnswer σ) := addrs.map fun listener => (listener, accept listener)

/-- The answers of the first `n` passes. -/
def Polling.answers (polling : Polling σ) (addrs : List SocketAddr) (n : ℕ) :
    List (SocketAddr × AcceptAnswer σ) :=
  (List.range n).flatMap fun k => passAnswers (polling.accept k) addrs

/-- The connections among some answers that are closed. -/
def intruders (answers : List (SocketAddr × AcceptAnswer σ)) : List σ :=
  answers.filterMap fun answer => answer.2.intruder

/-- None of the answers decides anything. -/
def Quiet (answers : List (SocketAddr × AcceptAnswer σ)) : Prop :=
  ∀ answer ∈ answers, answer.2.decision answer.1 = none

/-- An answer decides after others that do not, and what they have brought is closed. -/
def DecidedBy (answers : List (SocketAddr × AcceptAnswer σ))
    (outcome : Except LanError (σ × SocketAddr)) (refused : List σ) : Prop :=
  ∃ before last after, answers = before ++ last :: after ∧ Quiet before ∧
    last.2.decision last.1 = some outcome ∧ refused = intruders before

theorem quiet_append {answers others : List (SocketAddr × AcceptAnswer σ)} :
    Quiet (answers ++ others) ↔ Quiet answers ∧ Quiet others :=
  List.forall_mem_append

theorem intruders_append (answers others : List (SocketAddr × AcceptAnswer σ)) :
    intruders (answers ++ others) = intruders answers ++ intruders others :=
  List.filterMap_append

theorem Polling.answers_succ (polling : Polling σ) (addrs : List SocketAddr) (n : ℕ) :
    polling.answers addrs (n + 1)
      = polling.answers addrs n ++ passAnswers (polling.accept n) addrs := by
  simp [answers, List.range_succ, List.flatMap_append]

theorem DecidedBy.append_left {answers : List (SocketAddr × AcceptAnswer σ)}
    {outcome : Except LanError (σ × SocketAddr)} {refused : List σ}
    (h : DecidedBy answers outcome refused) {earlier : List (SocketAddr × AcceptAnswer σ)}
    (hearlier : Quiet earlier) :
    DecidedBy (earlier ++ answers) outcome (intruders earlier ++ refused) := by
  obtain ⟨before, last, after, rfl, hquiet, hlast, rfl⟩ := h
  exact ⟨earlier ++ before, last, after, by rw [List.append_assoc],
    quiet_append.mpr ⟨hearlier, hquiet⟩, hlast, (intruders_append _ _).symm⟩

theorem sweep_cons_of_decided {accept : SocketAddr → AcceptAnswer σ} {listener : SocketAddr}
    {outcome : Except LanError (σ × SocketAddr)}
    (h : (accept listener).decision listener = some outcome) (addrs : List SocketAddr) :
    sweep accept (listener :: addrs) = ⟨[], some outcome⟩ := by
  cases hanswer : accept listener with
  | connection stream peer blocking nodelay =>
      rw [hanswer, AcceptAnswer.decision] at h
      simp only [sweep, hanswer]
      by_cases hpeer : isPrivate peer.ip = false
      · simp [hpeer] at h
      · rw [if_neg hpeer] at h ⊢
        by_cases hblocking : blocking = false
        · rw [if_pos hblocking] at h ⊢
          rw [h]
        · rw [if_neg hblocking] at h ⊢
          by_cases hnodelay : nodelay = false
          · rw [if_pos hnodelay] at h ⊢
            rw [h]
          · rw [if_neg hnodelay] at h ⊢
            rw [h]
  | wouldBlock => simp [hanswer, AcceptAnswer.decision] at h
  | failed =>
      rw [hanswer, AcceptAnswer.decision] at h
      simp only [sweep, hanswer, h]

theorem sweep_cons_of_quiet {accept : SocketAddr → AcceptAnswer σ} {listener : SocketAddr}
    (h : (accept listener).decision listener = none) (addrs : List SocketAddr) :
    sweep accept (listener :: addrs)
      = ⟨intruders [(listener, accept listener)] ++ (sweep accept addrs).refused,
        (sweep accept addrs).outcome⟩ := by
  cases hanswer : accept listener with
  | connection stream peer blocking nodelay =>
      rw [hanswer, AcceptAnswer.decision] at h
      by_cases hpeer : isPrivate peer.ip = false
      · simp [sweep, hanswer, hpeer, intruders, AcceptAnswer.intruder]
      · rw [if_neg hpeer] at h
        by_cases hblocking : blocking = false
        · simp [hblocking] at h
        · by_cases hnodelay : nodelay = false
          · simp [hblocking, hnodelay] at h
          · simp [hblocking, hnodelay] at h
  | wouldBlock => simp [sweep, hanswer, intruders, AcceptAnswer.intruder]
  | failed => simp [hanswer, AcceptAnswer.decision] at h

/-- A pass ends with the first answer that decides. -/
theorem sweep_spec (accept : SocketAddr → AcceptAnswer σ) (addrs : List SocketAddr) :
    match (sweep accept addrs).outcome with
    | none => Quiet (passAnswers accept addrs) ∧
        (sweep accept addrs).refused = intruders (passAnswers accept addrs)
    | some outcome =>
        DecidedBy (passAnswers accept addrs) outcome (sweep accept addrs).refused := by
  induction addrs with
  | nil => exact ⟨fun _ h => absurd h List.not_mem_nil, rfl⟩
  | cons listener addrs ih =>
      have hcons : passAnswers accept (listener :: addrs)
          = [(listener, accept listener)] ++ passAnswers accept addrs := rfl
      cases hdecision : (accept listener).decision listener with
      | some outcome =>
          rw [sweep_cons_of_decided hdecision]
          exact ⟨[], (listener, accept listener), passAnswers accept addrs, rfl,
            fun _ h => absurd h List.not_mem_nil, hdecision, rfl⟩
      | none =>
          have hquiet : Quiet [(listener, accept listener)] := by
            intro answer hanswer
            obtain rfl := List.mem_singleton.mp hanswer
            exact hdecision
          rw [sweep_cons_of_quiet hdecision, hcons]
          cases houtcome : (sweep accept addrs).outcome with
          | none =>
              rw [houtcome] at ih
              exact ⟨quiet_append.mpr ⟨hquiet, ih.1⟩, by rw [intruders_append, ih.2]⟩
          | some outcome =>
              rw [houtcome] at ih
              exact ih.append_left hquiet

/-- What the loop returns: the first answer that decides, or nothing after a pass that ends past the
deadline. -/
def Polled.Of (polled : Polled σ) (polling : Polling σ) (addrs : List SocketAddr)
    (deadline : ℕ) : Prop :=
  ∃ n, (∀ k < n, polling.now k < deadline) ∧
    match polled.result with
    | .ok none => Quiet (polling.answers addrs (n + 1)) ∧ deadline ≤ polling.now n ∧
        polled.refused = intruders (polling.answers addrs (n + 1))
    | .ok (some connection) =>
        DecidedBy (polling.answers addrs (n + 1)) (.ok connection) polled.refused
    | .error e => DecidedBy (polling.answers addrs (n + 1)) (.error e) polled.refused

/-- From a pass on, after quiet ones, with a pass for each sleep that is left and one more. -/
theorem acceptRounds_spec {polling : Polling σ} {addrs : List SocketAddr} {deadline : ℕ}
    (hsleeps : polling.Sleeps deadline) {fuel k : ℕ}
    (hfuel : (deadline - polling.now k + POLL_INTERVAL - 1) / POLL_INTERVAL + 1 ≤ fuel)
    (hquiet : Quiet (polling.answers addrs k)) (hnow : ∀ j < k, polling.now j < deadline) :
    ∃ polled, acceptRounds polling addrs deadline fuel k (intruders (polling.answers addrs k))
      = some polled ∧ polled.Of polling addrs deadline := by
  have hpoll : POLL_INTERVAL = 25000000 := rfl
  induction fuel generalizing k with
  | zero => exact absurd hfuel (Nat.not_succ_le_zero _)
  | succ fuel ih =>
      have hpass := sweep_spec (polling.accept k) addrs
      simp only [acceptRounds]
      cases houtcome : (sweep (polling.accept k) addrs).outcome with
      | some outcome =>
          rw [houtcome] at hpass
          have hdecided := hpass.append_left hquiet
          rw [← Polling.answers_succ] at hdecided
          refine ⟨_, rfl, k, hnow, ?_⟩
          cases outcome with
          | error e => exact hdecided
          | ok connection => exact hdecided
      | none =>
          rw [houtcome] at hpass
          have hquiet' : Quiet (polling.answers addrs (k + 1)) := by
            rw [Polling.answers_succ]
            exact quiet_append.mpr ⟨hquiet, hpass.1⟩
          have hrefused : intruders (polling.answers addrs k)
              ++ (sweep (polling.accept k) addrs).refused
                = intruders (polling.answers addrs (k + 1)) := by
            rw [Polling.answers_succ, intruders_append, hpass.2]
          simp only [hrefused]
          by_cases hdone : deadline ≤ polling.now k
          · rw [if_pos hdone]
            exact ⟨_, rfl, k, hnow, hquiet', hdone, rfl⟩
          · rw [if_neg hdone]
            refine ih ?_ hquiet' fun j hj => ?_
            · have hsleep := hsleeps k
              rw [hpoll] at hfuel hsleep ⊢
              omega
            · rcases Nat.lt_succ_iff_lt_or_eq.mp hj with hj | rfl
              · exact hnow j hj
              · omega

/-- What the polling loop returns, refuses, and when it gives up. -/
theorem acceptTimeout_spec {polling : Polling σ} {start timeout : ℕ}
    (hsleeps : polling.Sleeps (start + timeout)) (hstart : start ≤ polling.now 0)
    (listener : LanListener) :
    ∃ polled,
      listener.acceptTimeout polling start timeout (timeout / POLL_INTERVAL + 2) = some polled ∧
        polled.Of polling listener.addrs (start + timeout) := by
  refine acceptRounds_spec hsleeps ?_ (fun _ h => absurd h List.not_mem_nil)
    fun j hj => absurd hj (Nat.not_lt_zero j)
  have hpoll : POLL_INTERVAL = 25000000 := rfl
  rw [hpoll]
  omega

/-- A connection from a public address in the first pass, and one from a private address in the
second. -/
def toyPolling : Polling ℕ where
  accept k _ :=
    if k = 0 then .connection 1 (.v4 ⟨8, 8, 8, 8⟩ 40000) true true
    else .connection 2 (.v4 ⟨192, 168, 1, 9⟩ 40001) true true
  now k := k * POLL_INTERVAL

theorem toyPolling_sleeps (deadline : ℕ) : toyPolling.Sleeps deadline := by
  intro k
  show k * POLL_INTERVAL + min POLL_INTERVAL _ ≤ (k + 1) * POLL_INTERVAL
  rw [Nat.succ_mul]
  exact Nat.add_le_add_left (Nat.min_le_left _ _) _

theorem acceptTimeout_spec_small :
    ∃ polled,
      toyListener.acceptTimeout toyPolling 0 POLL_INTERVAL (POLL_INTERVAL / POLL_INTERVAL + 2)
        = some polled ∧ polled.Of toyPolling toyListener.addrs (0 + POLL_INTERVAL) :=
  acceptTimeout_spec (toyPolling_sleeps _) (Nat.zero_le _) toyListener

/-- What decides for a connection is a connection from a private peer. -/
theorem decision_eq_ok_iff {listener peer : SocketAddr} {answer : AcceptAnswer σ} {stream : σ} :
    answer.decision listener = some (.ok (stream, peer))
      ↔ answer = .connection stream peer true true ∧ isPrivate peer.ip = true := by
  cases answer with
  | connection s p blocking nodelay =>
      by_cases h : isPrivate p.ip = true ∧ blocking = true ∧ nodelay = true
      · obtain ⟨hpeer, rfl, rfl⟩ := h
        simp only [AcceptAnswer.decision, hpeer, Bool.true_eq_false, if_false, Option.some.injEq,
          Except.ok.injEq, Prod.mk.injEq, AcceptAnswer.connection.injEq, and_true, iff_self_and]
        rintro ⟨-, rfl⟩
        exact hpeer
      · have hne : (AcceptAnswer.connection s p blocking nodelay).decision listener
            ≠ some (.ok (stream, peer)) := by
          simp only [AcceptAnswer.decision]
          split_ifs <;> simp_all
        simp only [hne, false_iff, not_and]
        rintro ⟨⟩ hpeer
        exact h ⟨hpeer, rfl, rfl⟩
  | wouldBlock => simp [AcceptAnswer.decision]
  | failed => simp [AcceptAnswer.decision]

/-! ### What is advertised -/

/-- The sockets that may be advertised. -/
def advertisable (bound : List SocketAddr) : List SocketAddr :=
  bound.filter fun addr => isPrivate addr.ip && !addr.ip.isLoopback

def SERVICE_TYPE : List Char := "_osprey._tcp.local.".toList

def TXT_DEVICE_ID : List Char := "device_id".toList

def TXT_VERSION : List Char := "v".toList

def ADVERT_VERSION : List Char := "1".toList

/-- The instance label of an agent. -/
def label (deviceId : Uuid) : List Char := "osprey-".toList ++ (hexEncode deviceId.val).take 12

/-- What a registration is made of. -/
structure ServiceInfo where
  serviceType : List Char
  instanceName : List Char
  hostName : List Char
  ips : List IpAddr
  port : UInt16
  properties : List (List Char × List Char)
  deriving DecidableEq

inductive DiscoveryError
  | noAddress
  | oddPort (odd : SocketAddr) (port : UInt16)
  deriving DecidableEq, Repr

def DiscoveryError.message : DiscoveryError → List Char
  | .noAddress => "no advertisable address".toList
  | .oddPort odd port => "listener bound ".toList ++ odd.text
      ++ " but mDNS can advertise only one port (".toList ++ decimal port.toNat ++ ")".toList

/-- The registration of some sockets; one record has one port. -/
def serviceInfo (deviceId : Uuid) (addrs : List SocketAddr) : Except DiscoveryError ServiceInfo :=
  match addrs with
  | [] => .error .noAddress
  | first :: _ =>
      match addrs.find? fun addr => addr.port != first.port with
      | some odd => .error (.oddPort odd first.port)
      | none =>
          .ok {
            serviceType := SERVICE_TYPE
            instanceName := label deviceId
            hostName := label deviceId ++ ".local.".toList
            ips := addrs.map SocketAddr.ip
            port := first.port
            properties := [(TXT_VERSION, ADVERT_VERSION), (TXT_DEVICE_ID, hyphenated deviceId)] }

/-- What `Advertisement::start` registers, if there is anything to advertise. -/
def Advertisement.start (deviceId : Uuid) (bound : List SocketAddr) :
    Except DiscoveryError (Option ServiceInfo) :=
  let addrs := advertisable bound
  if addrs = [] then .ok none else (serviceInfo deviceId addrs).map some

/-- A listener has one port, so its registration never fails: it is of the sockets that are not
loopback, with their port. -/
theorem start_of_sound {listener : LanListener} (h : listener.Sound) (deviceId : Uuid) :
    ∃ registration, Advertisement.start deviceId listener.addrs = .ok registration ∧
      (registration = none ↔ ∀ addr ∈ listener.addrs, addr.ip.isLoopback = true) ∧
      ∀ info ∈ registration, info.ips = (listener.addrs.map SocketAddr.ip).filter (!·.isLoopback) ∧
        ∀ addr ∈ listener.addrs, addr.port = info.port := by
  obtain ⟨port, -, hport⟩ := h.onePort
  have hfilter : advertisable listener.addrs
      = listener.addrs.filter fun addr => !addr.ip.isLoopback :=
    List.filter_congr fun addr haddr => by rw [h.isPrivate addr haddr, Bool.true_and]
  have hnone : advertisable listener.addrs = []
      ↔ ∀ addr ∈ listener.addrs, addr.ip.isLoopback = true := by
    rw [hfilter, List.filter_eq_nil_iff]
    simp
  by_cases hnil : advertisable listener.addrs = []
  · refine ⟨none, by simp [Advertisement.start, hnil], ?_, by simp⟩
    exact ⟨fun _ => hnone.mp hnil, fun _ => rfl⟩
  · obtain ⟨first, rest, hsplit⟩ := List.exists_cons_of_ne_nil hnil
    have hmem : ∀ addr ∈ first :: rest, addr.port = port := fun addr haddr =>
      hport addr (List.mem_of_mem_filter (hsplit ▸ haddr))
    have hfind : (first :: rest).find? (fun addr => addr.port != first.port) = none := by
      rw [List.find?_eq_none]
      intro addr haddr
      simp [hmem addr haddr, hmem first List.mem_cons_self]
    have hstart : Advertisement.start deviceId listener.addrs
        = (serviceInfo deviceId (first :: rest)).map some := by
      rw [Advertisement.start, hsplit, if_neg (List.cons_ne_nil _ _)]
    simp only [serviceInfo, hfind] at hstart
    refine ⟨_, hstart, ?_, ?_⟩
    · simp only [reduceCtorEq, false_iff]
      exact fun hall => hnil (hnone.mpr hall)
    · intro info hinfo
      obtain rfl := Option.mem_some_iff.mp hinfo
      refine ⟨?_, fun addr haddr => ?_⟩
      · show (first :: rest).map SocketAddr.ip = _
        rw [← hsplit, hfilter, List.filter_map]
        rfl
      · exact (hport addr haddr).trans (hmem first List.mem_cons_self).symm

end Osprey
