import AuroraVpn.WireGuard.Cps

/-!
# Noise — the decoys that are sent around a handshake

`aethernoize.rs`: the profiles, `wrap_ikev2`, `generate_junk`, `apply_obfuscation`,
`send_post_handshake_junk` and `send_keepalive_junk`.  Durations are in milliseconds.

* `ikePayload_wrapIkev2`: what is framed is read back.
* `decoys_exact`: what every profile sends before a handshake, and how long that takes.
* `keepaliveJunk_apart`: no decoy between the messages of a tunnel begins like one of them.
-/

namespace AuroraVpn
namespace WireGuard
namespace Noise

open BigEndian Draws

/-- The counts and sizes are `usize`. -/
structure AetherNoizeConfig where
  i1 : Option Text
  i2 : Option Text
  i3 : Option Text
  i4 : Option Text
  i5 : Option Text
  jc : Nat
  jcBeforeHs : Nat
  jcAfterI1 : Nat
  jcAfterHs : Nat
  jmin : Nat
  jmax : Nat
  junkInterval : Nat
  handshakeDelay : Nat
  allowZeroSize : Bool

namespace AetherNoizeConfig

def off : AetherNoizeConfig where
  i1 := none
  i2 := none
  i3 := none
  i4 := none
  i5 := none
  jc := 0
  jcBeforeHs := 0
  jcAfterI1 := 0
  jcAfterHs := 0
  jmin := 0
  jmax := 0
  junkInterval := 0
  handshakeDelay := 0
  allowZeroSize := false

def light : AetherNoizeConfig where
  i1 := some "<b 0d0a0d0a><t><r 20-32>".toList
  i2 := some "<rc 24-48>".toList
  i3 := none
  i4 := none
  i5 := none
  jc := 4
  jcBeforeHs := 2
  jcAfterI1 := 1
  jcAfterHs := 1
  jmin := 48
  jmax := 190
  junkInterval := 3
  handshakeDelay := 5
  allowZeroSize := false

def balanced : AetherNoizeConfig where
  i1 := some "<b 0d0a0d0a><t><rc 20-40>".toList
  i2 := some "<b 504f5354><rd 10-20><rc 20-30>".toList
  i3 := some "<r 30-50>".toList
  i4 := none
  i5 := none
  jc := 6
  jcBeforeHs := 3
  jcAfterI1 := 2
  jcAfterHs := 1
  jmin := 64
  jmax := 256
  junkInterval := 2
  handshakeDelay := 8
  allowZeroSize := false

def aggressive : AetherNoizeConfig where
  i1 := some "<b 0d0a0d0a><t><rc 40-64>".toList
  i2 := some "<b 504f5354><t><rd 15-30><rc 30-50>".toList
  i3 := some "<b 474554><rc 40-60>".toList
  i4 := some "<r 60-100>".toList
  i5 := some "<c><rd 20-40>".toList
  jc := 10
  jcBeforeHs := 4
  jcAfterI1 := 3
  jcAfterHs := 3
  jmin := 80
  jmax := 384
  junkInterval := 1
  handshakeDelay := 12
  allowZeroSize := false

def isEnabled (cfg : AetherNoizeConfig) : Bool :=
  0 < cfg.jc || cfg.i1.isSome

end AetherNoizeConfig

def fromProfile (name : Text) : AetherNoizeConfig :=
  if name = "off".toList ∨ name = "none".toList then .off
  else if name = "light".toList then .light
  else if name = "aggressive".toList ∨ name = "heavy".toList then .aggressive
  else .balanced

/-! ## Packets -/

/-- A proposal, as far as it is there. -/
def proposal : Bytes :=
  [0x00, 0x00, 0x00, 0x14, 0x01, 0x01, 0x00, 0x04, 0x03, 0x00, 0x00, 0x08, 0x01, 0x00, 0x00, 0x0c,
    0x00, 0x00, 0x00, 0x00]

/-- The header of the first message of an exchange, that of its security association, and the payload. -/
def ikev2Packet (initiatorSpi responderSpi payload : Bytes) : Bytes :=
  (initiatorSpi ++ responderSpi ++ [0x21, 0x20, 0x22, 0x08] ++ [0x00, 0x00, 0x00, 0x00]) ++
    toBe 4 (28 + 24 + payload.length) ++ [0x00, 0x00] ++ toBe 2 (24 + payload.length) ++ proposal ++ payload

/-- `fill_bytes` on an array. -/
def randomBytes (n : Nat) : Drawing Bytes :=
  times Alphabet.any.byte n

def initiatorSpi (payload : Bytes) : Drawing Bytes :=
  if 8 ≤ payload.length then pure (payload.take 8) else randomBytes 8

def wrapIkev2 (payload : Bytes) : Drawing Bytes :=
  if payload = [] then pure payload
  else do
    let initiator ← initiatorSpi payload
    let responder ← randomBytes 8
    pure (ikev2Packet initiator responder payload)

/-- The least and the greatest size of a junk packet. -/
def junkBounds (cfg : AetherNoizeConfig) : Nat × Nat :=
  if cfg.allowZeroSize then (cfg.jmin, max cfg.jmax cfg.jmin)
  else if cfg.jmax = 0 then (max cfg.jmin 1, max cfg.jmin 1)
  else (max cfg.jmin 1, max cfg.jmax cfg.jmin)

def junkSize (cfg : AetherNoizeConfig) : Drawing Nat :=
  let minSize := (junkBounds cfg).1
  let maxSize := (junkBounds cfg).2
  if maxSize = minSize then pure minSize else between minSize maxSize

def generateJunk (cfg : AetherNoizeConfig) : Drawing Bytes :=
  if cfg.jmin = 0 ∧ cfg.jmax = 0 then pure (if cfg.allowZeroSize then [] else [0x00])
  else do
    let size ← junkSize cfg
    if size = 0 then pure (if cfg.allowZeroSize then [] else [0x00]) else randomBytes size

/-! ## Sending -/

/-- What a burst does: it sends, and it sleeps. -/
inductive Act
  | sent (datagram : Bytes)
  | slept (millis : Nat)
  deriving DecidableEq

/-- A pause, unless it is none. -/
def pause (millis : Nat) : List Act :=
  if millis = 0 then [] else [.slept millis]

def junkTurn (cfg : AetherNoizeConfig) : Drawing (List Act) := do
  let junk ← generateJunk cfg
  pure (.sent junk :: pause cfg.junkInterval)

/-- `n` junk packets, each with the interval behind it. -/
def junkTurns (cfg : AetherNoizeConfig) (n : Nat) : Drawing (List Act) := do
  let turns ← times (junkTurn cfg) n
  pure turns.flatten

/-- The packet in front, framed. -/
def firstDecoy (spec : Option Text) : Drawing (List Act) :=
  match spec with
  | none => pure []
  | some i1 => do
      let payload ← parseCps i1
      if payload = [] then pure []
      else do
        let framed ← wrapIkev2 payload
        pure [.sent framed, .slept 2]

def signature (spec : Option Text) : Drawing (List Act) :=
  match spec with
  | none => pure []
  | some s => do
      let pkt ← parseCps s
      pure (if pkt = [] then [] else [.sent pkt, .slept 1])

def applyObfuscation (cfg : AetherNoizeConfig) : Drawing (List Act) :=
  if cfg.isEnabled then do
    let first ← firstDecoy cfg.i1
    let afterI1 ← junkTurns cfg cfg.jcAfterI1
    let beforeHs ← junkTurns cfg cfg.jcBeforeHs
    let signatures ← each signature [cfg.i2, cfg.i3, cfg.i4, cfg.i5]
    pure (first ++ afterI1 ++ beforeHs ++ signatures.flatten ++ pause cfg.handshakeDelay)
  else pure []

def sendPostHandshakeJunk (cfg : AetherNoizeConfig) : Drawing (List Act) :=
  junkTurns cfg cfg.jcAfterHs

/-- A first byte that would be that of a WireGuard message is another one. -/
def disguise : Bytes → Bytes
  | first :: rest => (if 1 ≤ first ∧ first ≤ 4 then first + 0x40 else first) :: rest
  | [] => []

def keepaliveTurn (cfg : AetherNoizeConfig) : Drawing (List Act) := do
  let junk ← generateJunk cfg
  let jitter ← between 0 8
  pure (.sent (disguise junk) :: pause (cfg.junkInterval + jitter))

def sendKeepaliveJunk (cfg : AetherNoizeConfig) : Drawing (List Act) :=
  if cfg.isEnabled then do
    let base := max cfg.jcBeforeHs 1
    let extra ← between 0 base
    -- the sum of two `usize`, which wraps
    let turns ← times (keepaliveTurn cfg) ((base + extra) % 2 ^ 64)
    pure turns.flatten
  else pure []

/-! ## What is seen of it -/

/-- What a reader of the format makes of a first message whose lengths agree with its own. -/
def ikePayload (datagram : Bytes) : Option Bytes :=
  if datagram.getD 17 0 = 0x20 ∧ ofBe ((datagram.drop 24).take 4) = datagram.length ∧
      ofBe ((datagram.drop 30).take 2) + 28 = datagram.length then
    some (datagram.drop 52)
  else none

def datagrams (acts : List Act) : List Bytes :=
  acts.filterMap fun
    | .sent datagram => some datagram
    | .slept _ => none

/-- How long it takes. -/
def elapsed (acts : List Act) : Nat :=
  (acts.map fun
    | .sent _ => 0
    | .slept millis => millis).sum

/-- How many packets a profile sends before a handshake. -/
def burst (cfg : AetherNoizeConfig) : Nat :=
  cfg.i1.isSome.toNat + cfg.jcAfterI1 + cfg.jcBeforeHs +
    ([cfg.i2, cfg.i3, cfg.i4, cfg.i5].map fun spec => spec.isSome.toNat).sum

/-- How long a profile holds a handshake back. -/
def delay (cfg : AetherNoizeConfig) : Nat :=
  cfg.i1.isSome.toNat * 2 + (cfg.jcAfterI1 + cfg.jcBeforeHs) * cfg.junkInterval +
    ([cfg.i2, cfg.i3, cfg.i4, cfg.i5].map fun spec => spec.isSome.toNat).sum + cfg.handshakeDelay

/-- A packet that is due in front of a handshake. -/
inductive Decoy
  | framed (i1 : Text)
  | junk
  | signature (spec : Text)

/-- The packets that a profile says, in their order. -/
def decoys (cfg : AetherNoizeConfig) : List Decoy :=
  cfg.i1.toList.map .framed ++ List.replicate (cfg.jcAfterI1 + cfg.jcBeforeHs) .junk ++
    ([cfg.i2, cfg.i3, cfg.i4, cfg.i5].flatMap Option.toList).map .signature

/-- The pause behind a packet. -/
def Decoy.gap (cfg : AetherNoizeConfig) : Decoy → Nat
  | .framed _ => 2
  | .junk => cfg.junkInterval
  | .signature _ => 1

/-- What a packet is made of: an outcome of its own specification, which a reader gets back where it is framed. -/
def Decoy.Carries (cfg : AetherNoizeConfig) : Decoy → Bytes → Prop
  | .framed i1, datagram => ∃ payload, Yields (parseCps i1) payload ∧ payload ≠ [] ∧
      Yields (wrapIkev2 payload) datagram ∧ ikePayload datagram = some payload
  | .junk, datagram => Yields (generateJunk cfg) datagram
  | .signature spec, datagram => Yields (parseCps spec) datagram

/-- Acts that send the packet, and then pause. -/
def Decoy.Turn (cfg : AetherNoizeConfig) (decoy : Decoy) (acts : List Act) : Prop :=
  ∃ datagram, decoy.Carries cfg datagram ∧ datagram ≠ [] ∧ datagram.length ≤ 384 ∧
    acts = .sent datagram :: pause (decoy.gap cfg)

/-- The packets in front of a handshake. -/
structure Decoys (cfg : AetherNoizeConfig) (acts : List Act) : Prop where
  turns : ∃ turns, List.Forall₂ (Decoy.Turn cfg) (decoys cfg) turns ∧
    acts = turns.flatten ++ pause cfg.handshakeDelay
  count : (datagrams acts).length = burst cfg
  held_back : elapsed acts = delay cfg

/-- The packets between the messages of a tunnel. -/
structure Keepalive (cfg : AetherNoizeConfig) (acts : List Act) : Prop where
  count : cfg.isEnabled → ∃ extra ≤ max cfg.jcBeforeHs 1,
    (datagrams acts).length = (max cfg.jcBeforeHs 1 + extra) % 2 ^ 64
  idle : cfg.isEnabled = false → acts = []
  apart : ∀ datagram ∈ datagrams acts, ∀ first ∈ datagram.head?, ¬ (1 ≤ first ∧ first ≤ 4)
  held_back : elapsed acts ≤ (datagrams acts).length * (cfg.junkInterval + 8)

section Proofs

variable {cfg : AetherNoizeConfig} {acts acts' : List Act} {n m ms ms' : Nat}

@[simp] theorem datagrams_append : datagrams (acts ++ acts') = datagrams acts ++ datagrams acts' :=
  List.filterMap_append

@[simp] theorem elapsed_append : elapsed (acts ++ acts') = elapsed acts + elapsed acts' := by
  simp [elapsed]

@[simp] theorem datagrams_sent (datagram : Bytes) : datagrams (.sent datagram :: acts) = datagram :: datagrams acts :=
  rfl

@[simp] theorem elapsed_sent (datagram : Bytes) : elapsed (.sent datagram :: acts) = elapsed acts :=
  Nat.zero_add _

@[simp] theorem datagrams_pause (millis : Nat) : datagrams (pause millis) = [] := by
  unfold pause
  split_ifs <;> rfl

@[simp] theorem elapsed_pause (millis : Nat) : elapsed (pause millis) = millis := by
  unfold pause
  split_ifs with hnone
  · rw [hnone]
    rfl
  · exact Nat.add_zero millis

/-! ## Framing -/

theorem length_ikev2Packet {a b payload : Bytes} (ha : a.length = 8) (hb : b.length = 8) :
    (ikev2Packet a b payload).length = payload.length + 52 := by
  simp only [ikev2Packet, List.length_append, length_toBe, ha, hb, proposal, List.length_cons, List.length_nil]
  omega

theorem ikePayload_ikev2Packet {a b payload : Bytes} (ha : a.length = 8) (hb : b.length = 8)
    (hfits : payload.length < 65000) : ikePayload (ikev2Packet a b payload) = some payload := by
  have hlength : (ikev2Packet a b payload).length = payload.length + 52 := length_ikev2Packet ha hb
  -- the version, the length of the message and that of the payload stand where the reader looks
  have hversion : (ikev2Packet a b payload).getD 17 0 = 0x20 := by
    have hab : (a ++ b).length = 16 := by rw [List.length_append, ha, hb]
    rw [List.getD_eq_getElem?_getD, ikev2Packet]
    simp only [List.append_assoc]
    rw [← List.append_assoc a, List.getElem?_append_right (by omega), hab]
    rfl
  have htotal : ofBe (((ikev2Packet a b payload).drop 24).take 4) = payload.length + 52 := by
    have hfront : (a ++ b ++ [0x21, 0x20, 0x22, 0x08] ++ [0x00, 0x00, 0x00, 0x00] : Bytes).length = 24 := by
      simp [ha, hb]
    rw [ikev2Packet, List.append_assoc, List.append_assoc, List.append_assoc, List.append_assoc,
      List.drop_left' hfront, List.take_left' (length_toBe 4 _), ofBe_toBe]
    omega
  have hpart : ofBe (((ikev2Packet a b payload).drop 30).take 2) = payload.length + 24 := by
    have hfront : ((a ++ b ++ [0x21, 0x20, 0x22, 0x08] ++ [0x00, 0x00, 0x00, 0x00]) ++
        toBe 4 (28 + 24 + payload.length) ++ [0x00, 0x00] : Bytes).length = 30 := by
      simp [ha, hb]
    rw [ikev2Packet, List.append_assoc, List.append_assoc, List.drop_left' hfront,
      List.take_left' (length_toBe 2 _), ofBe_toBe]
    omega
  -- the payload is behind the headers and the proposal
  have hrest : (ikev2Packet a b payload).drop 52 = payload := by
    rw [ikev2Packet]
    apply List.drop_left'
    simp [ha, hb, proposal]
  rw [ikePayload, if_pos ⟨hversion, by omega, by omega⟩, hrest]

theorem always_randomBytes (n : Nat) : Always (randomBytes n) fun bytes => bytes.length = n :=
  (always_times (always_true _) n).imp fun _ h => h.1

/-- **What is framed is read back.** -/
theorem ikePayload_wrapIkev2 {payload : Bytes} (hsome : payload ≠ []) (hfits : payload.length < 65000) :
    Always (wrapIkev2 payload) fun datagram =>
      ikePayload datagram = some payload ∧ datagram.length = payload.length + 52 := by
  rw [wrapIkev2, if_neg hsome]
  have hfirst : Always (initiatorSpi payload) fun spi => spi.length = 8 := by
    unfold initiatorSpi
    split_ifs with hlong
    · exact always_pure (List.length_take_of_le hlong)
    · exact always_randomBytes 8
  apply always_bind hfirst
  intro a ha
  apply always_bind (always_randomBytes 8)
  intro b hb
  exact always_pure ⟨ikePayload_ikev2Packet ha hb hfits, length_ikev2Packet ha hb⟩

/-! ## Turns -/

theorem Decoy.Turn.count {decoy : Decoy} (h : decoy.Turn cfg acts) : (datagrams acts).length = 1 := by
  obtain ⟨datagram, -, -, -, rfl⟩ := h
  rw [datagrams_sent, datagrams_pause]
  rfl

theorem Decoy.Turn.held_back {decoy : Decoy} (h : decoy.Turn cfg acts) : elapsed acts = decoy.gap cfg := by
  obtain ⟨datagram, -, -, -, rfl⟩ := h
  rw [elapsed_sent, elapsed_pause]

/-- One packet for each turn, and the pauses one after the other. -/
theorem turns_flatten {due : List Decoy} {turns : List (List Act)} (h : List.Forall₂ (Decoy.Turn cfg) due turns) :
    (datagrams turns.flatten).length = due.length ∧
      elapsed turns.flatten = (due.map (Decoy.gap cfg)).sum := by
  induction h with
  | nil => exact ⟨rfl, rfl⟩
  | cons hturn _ ih =>
      simp only [List.flatten_cons, datagrams_append, elapsed_append, List.length_append, hturn.count,
        hturn.held_back, ih, List.length_cons, List.map_cons, List.sum_cons]
      exact ⟨Nat.add_comm _ _, trivial⟩

theorem length_toLists (specs : List (Option Text)) :
    (specs.flatMap Option.toList).length = (specs.map fun spec => spec.isSome.toNat).sum := by
  induction specs with
  | nil => rfl
  | cons spec specs ih =>
      rw [List.flatMap_cons, List.length_append, ih, List.map_cons, List.sum_cons]
      cases spec <;> rfl

theorem length_decoys (cfg : AetherNoizeConfig) : (decoys cfg).length = burst cfg := by
  have hfirst : cfg.i1.toList.length = cfg.i1.isSome.toNat := by
    cases cfg.i1 <;> rfl
  simp only [decoys, burst, List.length_append, List.length_map, List.length_replicate, hfirst, length_toLists]
  omega

theorem sum_gaps (cfg : AetherNoizeConfig) :
    ((decoys cfg).map (Decoy.gap cfg)).sum + cfg.handshakeDelay = delay cfg := by
  have hfirst : ((cfg.i1.toList.map Decoy.framed).map (Decoy.gap cfg)).sum = cfg.i1.isSome.toNat * 2 := by
    cases cfg.i1 <;> rfl
  have hsignatures : ∀ specs : List Text, ((specs.map Decoy.signature).map (Decoy.gap cfg)).sum = specs.length := by
    intro specs
    induction specs with
    | nil => rfl
    | cons spec specs ih =>
        rw [List.map_cons, List.map_cons, List.sum_cons, ih, List.length_cons, Nat.add_comm]
        rfl
  simp only [decoys, delay, List.map_append, List.sum_append, hfirst, hsignatures, length_toLists,
    List.map_replicate, List.sum_replicate, Decoy.gap]
  rfl

/-! ## Profiles -/

/-- A specification whose packets have some length, but no great one. -/
def Modest (limit : Nat) (spec : Option Text) : Prop :=
  ∀ s ∈ spec, Always (parseCps s) fun pkt => pkt ≠ [] ∧ pkt.length ≤ limit

theorem modest_none (limit : Nat) : Modest limit none := by
  intro s hs
  cases hs

theorem modest_tags {limit : Nat} {spec : Text} (tags : List Tag) (hspec : spec = tags.flatMap Tag.text)
    (hvalid : ∀ tag ∈ tags, tag.Valid) (hleast : 0 < (tags.map Tag.least).sum)
    (hmost : (tags.map Tag.most).sum ≤ limit) : Modest limit (some spec) := by
  intro s hs
  rw [← Option.some.inj hs, hspec]
  apply (length_parseCps hvalid).imp
  intro pkt hpkt
  exact ⟨List.ne_nil_of_length_pos (hleast.trans_le hpkt.1), hpkt.2.trans hmost⟩

/-- What the profiles have in common. -/
structure Discreet (cfg : AetherNoizeConfig) : Prop where
  first : Modest 332 cfg.i1
  signatures : ∀ spec ∈ [cfg.i2, cfg.i3, cfg.i4, cfg.i5], Modest 384 spec
  jmin_le : cfg.jmin ≤ 384
  jmax_le : cfg.jmax ≤ 384
  some_size : cfg.allowZeroSize = false
  idle : cfg.isEnabled = false → decoys cfg = [] ∧ pause cfg.handshakeDelay = []

theorem discreet_off : Discreet .off where
  first := modest_none _
  signatures := by
    simp only [List.forall_mem_cons, AetherNoizeConfig.off]
    exact ⟨modest_none _, modest_none _, modest_none _, modest_none _, fun _ h => absurd h List.not_mem_nil⟩
  jmin_le := by decide
  jmax_le := by decide
  some_size := rfl
  idle := by decide

theorem discreet_light : Discreet .light where
  first := modest_tags [.bytes [0x0d, 0x0a, 0x0d, 0x0a], .time, .random .any 20 32] (toList_literal rfl)
    (by decide) (by decide) (by decide)
  signatures := by
    simp only [List.forall_mem_cons, AetherNoizeConfig.light]
    refine ⟨?_, modest_none _, modest_none _, modest_none _, fun _ h => absurd h List.not_mem_nil⟩
    exact modest_tags [.random .letters 24 48] (toList_literal rfl) (by decide) (by decide) (by decide)
  jmin_le := by decide
  jmax_le := by decide
  some_size := rfl
  idle := by decide

theorem discreet_balanced : Discreet .balanced where
  first := modest_tags [.bytes [0x0d, 0x0a, 0x0d, 0x0a], .time, .random .letters 20 40] (toList_literal rfl)
    (by decide) (by decide) (by decide)
  signatures := by
    simp only [List.forall_mem_cons, AetherNoizeConfig.balanced]
    refine ⟨?_, ?_, modest_none _, modest_none _, fun _ h => absurd h List.not_mem_nil⟩
    · exact modest_tags [.bytes [0x50, 0x4f, 0x53, 0x54], .random .digits 10 20, .random .letters 20 30]
        (toList_literal rfl) (by decide) (by decide) (by decide)
    · exact modest_tags [.random .any 30 50] (toList_literal rfl) (by decide) (by decide) (by decide)
  jmin_le := by decide
  jmax_le := by decide
  some_size := rfl
  idle := by decide

theorem discreet_aggressive : Discreet .aggressive where
  first := modest_tags [.bytes [0x0d, 0x0a, 0x0d, 0x0a], .time, .random .letters 40 64] (toList_literal rfl)
    (by decide) (by decide) (by decide)
  signatures := by
    simp only [List.forall_mem_cons, AetherNoizeConfig.aggressive]
    refine ⟨?_, ?_, ?_, ?_, fun _ h => absurd h List.not_mem_nil⟩
    · exact modest_tags [.bytes [0x50, 0x4f, 0x53, 0x54], .time, .random .digits 15 30, .random .letters 30 50]
        (toList_literal rfl) (by decide) (by decide) (by decide)
    · exact modest_tags [.bytes [0x47, 0x45, 0x54], .random .letters 40 60] (toList_literal rfl)
        (by decide) (by decide) (by decide)
    · exact modest_tags [.random .any 60 100] (toList_literal rfl) (by decide) (by decide) (by decide)
    · exact modest_tags [.counter, .random .digits 20 40] (toList_literal rfl)
        (by decide) (by decide) (by decide)
  jmin_le := by decide
  jmax_le := by decide
  some_size := rfl
  idle := by decide

theorem discreet_fromProfile (name : Text) : Discreet (fromProfile name) := by
  unfold fromProfile
  split_ifs
  · exact discreet_off
  · exact discreet_light
  · exact discreet_aggressive
  · exact discreet_balanced

/-! ## Before a handshake -/

theorem generateJunk_modest (h : Discreet cfg) :
    Always (generateJunk cfg) fun junk => junk ≠ [] ∧ junk.length ≤ 384 := by
  have hmin := h.jmin_le
  have hmax := h.jmax_le
  -- the bounds are positive and in order, and within the limit with the sizes of the profiles
  have hbounds : 0 < (junkBounds cfg).1 ∧ (junkBounds cfg).1 ≤ (junkBounds cfg).2 ∧ (junkBounds cfg).2 ≤ 384 := by
    unfold junkBounds
    simp only [h.some_size, Bool.false_eq_true, if_false]
    split_ifs <;> simp only <;> omega
  obtain ⟨hpos, hle, hlimit⟩ := hbounds
  have hsize : Always (junkSize cfg) fun size => (junkBounds cfg).1 ≤ size ∧ size ≤ (junkBounds cfg).2 := by
    unfold junkSize
    dsimp only
    split_ifs
    · exact always_pure ⟨le_rfl, hle⟩
    · exact always_between hle
  unfold generateJunk
  simp only [h.some_size, Bool.false_eq_true, if_false]
  -- without a size there is one byte only
  split_ifs with hnone
  · exact always_pure (by decide)
  · apply always_bind hsize
    intro size hsize
    rw [if_neg (by omega)]
    apply (always_randomBytes size).imp
    intro junk hjunk
    rw [hjunk]
    exact ⟨List.ne_nil_of_length_pos (by omega), hsize.2.trans hlimit⟩

theorem junkTurns_turns (h : Discreet cfg) (n : Nat) :
    Always (junkTurns cfg n) fun acts =>
      ∃ turns, List.Forall₂ (Decoy.Turn cfg) (List.replicate n .junk) turns ∧ acts = turns.flatten := by
  have hturn : Always (junkTurn cfg) (Decoy.junk.Turn cfg) := by
    apply always_bind ((always_yields (generateJunk cfg)).and (generateJunk_modest h))
    rintro junk ⟨hyields, hsome, hsmall⟩
    exact always_pure ⟨junk, hyields, hsome, hsmall, rfl⟩
  apply always_bind (always_times hturn n)
  rintro turns ⟨rfl, hturns⟩
  refine always_pure ⟨turns, ?_, rfl⟩
  rw [List.forall₂_iff_get]
  refine ⟨List.length_replicate, fun i hi hi' => ?_⟩
  rw [List.get_eq_getElem, List.getElem_replicate]
  exact hturns _ (List.getElem_mem hi')

theorem signature_turns (cfg : AetherNoizeConfig) {spec : Option Text} (h : Modest 384 spec) :
    Always (signature spec) fun acts =>
      ∃ turns, List.Forall₂ (Decoy.Turn cfg) (spec.toList.map .signature) turns ∧ acts = turns.flatten := by
  cases spec with
  | none => exact always_pure ⟨[], .nil, rfl⟩
  | some s =>
      apply always_bind ((always_yields (parseCps s)).and (h s rfl))
      rintro pkt ⟨hyields, hsome, hsmall⟩
      rw [if_neg hsome]
      exact always_pure ⟨[[.sent pkt, .slept 1]], .cons ⟨pkt, hyields, hsome, hsmall, rfl⟩ .nil, rfl⟩

theorem signatures_turns {specs : List (Option Text)} (h : ∀ spec ∈ specs, Modest 384 spec) :
    Always (each signature specs) fun parts =>
      ∃ turns, List.Forall₂ (Decoy.Turn cfg) ((specs.flatMap Option.toList).map .signature) turns ∧
        parts.flatten = turns.flatten := by
  apply (always_each specs fun spec hspec => signature_turns cfg (h spec hspec)).imp
  intro parts hparts
  clear h
  induction hparts with
  | nil => exact ⟨[], .nil, rfl⟩
  | cons hpart _ ih =>
      obtain ⟨turns, hturns, rfl⟩ := hpart
      obtain ⟨more, hmore, hflat⟩ := ih
      refine ⟨turns ++ more, ?_, ?_⟩
      · rw [List.flatMap_cons, List.map_append]
        exact List.rel_append hturns hmore
      · rw [List.flatten_cons, hflat, List.flatten_append]

/-- The packet in front carries what its specification yields. -/
theorem firstDecoy_turns {spec : Option Text} (h : Modest 332 spec) :
    Always (firstDecoy spec) fun acts =>
      ∃ turns, List.Forall₂ (Decoy.Turn cfg) (spec.toList.map .framed) turns ∧ acts = turns.flatten := by
  cases spec with
  | none => exact always_pure ⟨[], .nil, rfl⟩
  | some s =>
      apply always_bind ((always_yields (parseCps s)).and (h s rfl))
      rintro payload ⟨hpayload, hsome, hsmall⟩
      rw [if_neg hsome]
      apply always_bind ((always_yields (wrapIkev2 payload)).and (ikePayload_wrapIkev2 hsome (by omega)))
      rintro framed ⟨hframed, hread, hlength⟩
      have hfull : framed ≠ [] := List.ne_nil_of_length_pos (by omega)
      have hturn : (Decoy.framed s).Turn cfg [.sent framed, .slept 2] :=
        ⟨framed, ⟨payload, hpayload, hsome, hframed, hread⟩, hfull, by omega, rfl⟩
      exact always_pure ⟨[[.sent framed, .slept 2]], .cons hturn .nil, rfl⟩

theorem decoys_of_turns {turns : List (List Act)} (h : List.Forall₂ (Decoy.Turn cfg) (decoys cfg) turns) :
    Decoys cfg (turns.flatten ++ pause cfg.handshakeDelay) where
  turns := ⟨turns, h, rfl⟩
  count := by rw [datagrams_append, datagrams_pause, List.append_nil, (turns_flatten h).1, length_decoys]
  held_back := by rw [elapsed_append, elapsed_pause, (turns_flatten h).2, sum_gaps]

/-- **What every profile sends before a handshake, and how long that takes.** -/
theorem decoys_exact (name : Text) :
    Always (applyObfuscation (fromProfile name)) (Decoys (fromProfile name)) ∧
      burst (fromProfile name) ≤ 12 ∧ delay (fromProfile name) ≤ 25 := by
  -- what is sent, and the two bounds
  refine ⟨?_, ?_⟩
  · have hdiscreet := discreet_fromProfile name
    generalize hcfg : fromProfile name = cfg at hdiscreet
    unfold applyObfuscation
    split_ifs with henabled
    -- the decoys before the handshake, in the order in which they are sent
    · apply always_bind (firstDecoy_turns hdiscreet.first)
      rintro _ ⟨first, hfirst, rfl⟩
      apply always_bind (junkTurns_turns hdiscreet _)
      rintro _ ⟨afterI1, hafter, rfl⟩
      apply always_bind (junkTurns_turns hdiscreet _)
      rintro _ ⟨beforeHs, hbefore, rfl⟩
      apply always_bind (signatures_turns hdiscreet.signatures)
      rintro parts ⟨signatures, hsignatures, hflat⟩
      apply always_pure
      have hall : List.Forall₂ (Decoy.Turn cfg) (decoys cfg) (first ++ (afterI1 ++ beforeHs) ++ signatures) := by
        unfold decoys
        rw [List.replicate_add]
        exact List.rel_append (List.rel_append hfirst (List.rel_append hafter hbefore)) hsignatures
      -- the order in which the code has put them together
      have hshape : first.flatten ++ afterI1.flatten ++ beforeHs.flatten ++ parts.flatten ++
          pause cfg.handshakeDelay =
          (first ++ (afterI1 ++ beforeHs) ++ signatures).flatten ++ pause cfg.handshakeDelay := by
        simp only [List.flatten_append, hflat, List.append_assoc]
      rw [hshape]
      exact decoys_of_turns hall
    · -- a profile that is not enabled has nothing to send
      obtain ⟨hnone, hstill⟩ := hdiscreet.idle (Bool.eq_false_iff.2 henabled)
      have hdue : List.Forall₂ (Decoy.Turn cfg) (decoys cfg) [] := hnone ▸ List.Forall₂.nil
      have hall := decoys_of_turns hdue
      rw [hstill] at hall
      exact always_pure hall
  -- the bounds are those of the profiles that there are
  · unfold fromProfile
    split_ifs <;> decide

/-! ## Between the messages -/

theorem disguise_apart (junk : Bytes) : ∀ first ∈ (disguise junk).head?, ¬ (1 ≤ first ∧ first ≤ 4) := by
  cases junk with
  | nil =>
      intro first h
      cases h
  | cons b junk =>
      intro first h
      rw [← Option.some.inj h]
      split_ifs with hb
      · rw [UInt8.le_iff_toNat_le, UInt8.le_iff_toNat_le] at hb ⊢
        rw [UInt8.toNat_add]
        simp only [UInt8.reduceToNat] at hb ⊢
        omega
      · exact hb

/-- Acts that send `n` packets none of which begins like a message. -/
structure Disguised (cfg : AetherNoizeConfig) (n : Nat) (acts : List Act) : Prop where
  count : (datagrams acts).length = n
  held_back : elapsed acts ≤ n * (cfg.junkInterval + 8)
  apart : ∀ datagram ∈ datagrams acts, ∀ first ∈ datagram.head?, ¬ (1 ≤ first ∧ first ≤ 4)

theorem Disguised.flatten {turns : List (List Act)} (h : ∀ turn ∈ turns, Disguised cfg 1 turn) :
    Disguised cfg turns.length turns.flatten := by
  induction turns with
  | nil => exact ⟨rfl, Nat.zero_le _, fun _ hmem => absurd hmem List.not_mem_nil⟩
  | cons turn turns ih =>
      have hturn := h turn List.mem_cons_self
      have hrest := ih fun t ht => h t (List.mem_cons_of_mem _ ht)
      refine ⟨?_, ?_, ?_⟩
      · rw [List.flatten_cons, datagrams_append, List.length_append, hturn.count, hrest.count, List.length_cons,
          Nat.add_comm]
      · rw [List.flatten_cons, elapsed_append, List.length_cons, Nat.succ_mul, Nat.add_comm]
        have hone := hturn.held_back
        rw [Nat.one_mul] at hone
        exact Nat.add_le_add hrest.held_back hone
      · intro datagram hmem
        rw [List.flatten_cons, datagrams_append] at hmem
        rcases List.mem_append.1 hmem with hmem | hmem
        · exact hturn.apart datagram hmem
        · exact hrest.apart datagram hmem

/-- **No decoy between the messages of a tunnel begins like one of them.** -/
theorem keepaliveJunk_apart (cfg : AetherNoizeConfig) : Always (sendKeepaliveJunk cfg) (Keepalive cfg) := by
  -- one decoy and the pause behind it
  have hturn : Always (keepaliveTurn cfg) (Disguised cfg 1) := by
    apply always_bind (always_true (generateJunk cfg))
    intro junk _
    apply always_bind (always_between (Nat.zero_le 8))
    intro jitter hjitter
    apply always_pure
    refine ⟨by rw [datagrams_sent, datagrams_pause]; rfl, ?_, ?_⟩
    · rw [elapsed_sent, elapsed_pause]
      omega
    · rw [datagrams_sent, datagrams_pause]
      intro datagram hmem
      rw [List.mem_singleton.1 hmem]
      exact disguise_apart junk
  unfold sendKeepaliveJunk
  split_ifs with henabled
  -- as many turns as the draw says
  · apply always_bind (always_between (Nat.zero_le (max cfg.jcBeforeHs 1)))
    intro extra hextra
    apply always_bind (always_times hturn _)
    rintro turns ⟨hlength, hturns⟩
    apply always_pure
    have hall := Disguised.flatten hturns
    rw [hlength] at hall
    refine ⟨fun _ => ⟨extra, hextra.2, hall.count⟩, fun hidle => ?_, hall.apart, ?_⟩
    · rw [hidle] at henabled
      cases henabled
    · rw [hall.count]
      exact hall.held_back
  · apply always_pure
    exact ⟨fun h => absurd h henabled, fun _ => rfl, fun _ h => absurd h List.not_mem_nil, Nat.zero_le _⟩

/-- A full profile: from four to eight packets. -/
theorem keepaliveJunk_apart_aggressive : Always (sendKeepaliveJunk .aggressive) fun acts =>
    4 ≤ (datagrams acts).length ∧ (datagrams acts).length ≤ 8 ∧ elapsed acts ≤ (datagrams acts).length * 9 := by
  apply (keepaliveJunk_apart .aggressive).imp
  intro acts hacts
  obtain ⟨extra, hextra, hcount⟩ := hacts.count rfl
  have hlate := hacts.held_back
  simp only [AetherNoizeConfig.aggressive] at hextra hcount hlate
  refine ⟨by omega, by omega, hlate⟩

end Proofs

end Noise
end WireGuard
end AuroraVpn
