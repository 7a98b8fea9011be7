import AuroraVpn.NetStack.Sockets

/-!
# SimpleSocket — a socket that meets the laws

The plainest socket with the behaviour that `TcpLaws` asks for: a stage, the room left for sending,
and the chunks that wait to be read.
-/

namespace AuroraVpn
namespace Net

/-- A chunk is its first byte and the rest, so that none is empty. -/
structure SimpleSocket where
  stage : TcpStage
  window : Nat
  chunks : List (UInt8 × Bytes)
  seen : Bytes
  broken : Bool
  deriving DecidableEq

namespace SimpleSocket

def chunkBytes (c : UInt8 × Bytes) : Bytes :=
  c.1 :: c.2

def readable (x : SimpleSocket) : List Bytes :=
  x.chunks.map chunkBytes

/-- What `close` makes of a stage. -/
def closed : TcpStage → TcpStage
  | .listen | .synSent => .closed
  | .synReceived | .established => .finWait1
  | .closeWait => .lastAck
  | stage => stage

def ops : TcpOps SimpleSocket where
  new _ := ⟨.closed, 0, [], [], false⟩
  connect _ dst _ x := if dst.port = 0 then .error "Unaddressable" else .ok { x with stage := .synSent }
  stage x := x.stage
  canSend x := x.stage.connected && decide (0 < x.window)
  sendSlice data x :=
    if x.stage.connected then
      (some (min x.window data.length), { x with window := x.window - min x.window data.length })
    else
      (none, x)
  canRecv x := !x.chunks.isEmpty
  recv x :=
    match x.chunks with
    | [] => (none, x)
    | c :: chunks => (some (chunkBytes c), { x with chunks })
  close x := { x with stage := closed x.stage }
  abort x := { x with stage := .closed }
  polls x y := (x.stage.opened = true → y.stage.opened = true) ∧
    (y.broken = false → x.broken = false ∧
      ∃ fresh, y.seen = x.seen ++ (fresh.map chunkBytes).flatten ∧ y.chunks = x.chunks ++ fresh)
  received x := x.seen
  readable
  broken x := x.broken = true

/-- A UDP socket that never has anything to read. -/
def udpOps : UdpOps Unit where
  new := ()
  bind _ _ := .ok ()
  sendSlice _ _ _ := ()
  canRecv _ := false
  recv _ := (none, ())
  polls _ _ := True

theorem laws : TcpLaws ops where
  -- the socket ignores what the laws leave open: windows, retransmission, timers
  connect_fresh {iface dst port keepalive x} h := by
    have hx : x = ⟨.synSent, 0, [], [], false⟩ := by
      by_cases hport : dst.port = 0 <;> simp_all [ops]
    rw [hx]
    exact ⟨rfl, rfl⟩
  canSend_stage {x} h := by
    simp only [ops, Bool.and_eq_true] at h
    exact h.1
  sendSlice_le {data x n} h := by
    by_cases hstage : x.stage.connected = true
    · simp only [ops, hstage, if_true, Option.some.injEq] at h
      omega
    · simp [ops, hstage] at h
  sendSlice_same data x := by
    by_cases hstage : x.stage.connected = true <;> constructor <;> simp [ops, hstage, readable]
  sendSlice_stage data x := by
    by_cases hstage : x.stage.connected = true <;> simp [ops, hstage]
  canRecv_iff x := by
    cases hchunks : x.chunks <;> simp [ops, readable, hchunks]
  recv_readable {x chunk rest} h := by
    cases hchunks : x.chunks with
    | nil => simp [ops, readable, hchunks] at h
    | cons c chunks =>
        simp only [ops, readable, hchunks, List.map_cons, List.cons.injEq] at h
        obtain ⟨rfl, rfl⟩ := h
        exact ⟨List.cons_ne_nil _ _, { x with chunks }, by simp [ops, hchunks], rfl, rfl, Iff.rfl, rfl⟩
  close_same x := ⟨rfl, rfl, Iff.rfl⟩
  close_finished {x} h := by
    have hstage : closed x.stage = x.stage := by
      revert h
      simp only [ops]
      cases x.stage <;> decide
    simp [ops, hstage]
  close_opened {x} := by
    simp only [ops]
    cases x.stage <;> decide
  polls_opened h := h.1
  polls_keep {x y} h hunbroken := by
    obtain ⟨hx, fresh, hseen, hchunks⟩ := h.2 (by simpa [ops] using hunbroken)
    exact ⟨by simp [ops, hx], (fresh.map chunkBytes).flatten, hseen, by simp [ops, readable, hchunks]⟩

end SimpleSocket

end Net
end AuroraVpn
