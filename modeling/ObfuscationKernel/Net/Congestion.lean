import Mathlib.Tactic

/-! Congestion control as a policy of the connection, and the NewReno policy. -/

namespace ObfuscationKernel.Net

class CongestionControl (σ : Type) where
  fresh : σ
  start : σ → ℕ → σ
  acknowledged : σ → ℕ → ℕ → σ
  enterRecovery : σ → ℕ → ℕ → σ
  duplicate : σ → ℕ → σ
  partialAck : σ → ℕ → ℕ → σ
  exitRecovery : σ → ℕ → ℕ → σ
  timeout : σ → ℕ → ℕ → σ
  window : σ → ℕ
  threshold : σ → ℕ

structure NewReno where
  cwnd : ℕ := 0
  ssthresh : ℕ := 2 ^ 32 - 1
  deriving DecidableEq, Repr

namespace NewReno

def half (flight mss : ℕ) : ℕ := if flight / 2 > 2 * mss then flight / 2 else 2 * mss

def grow (r : NewReno) (bytes : ℕ) : NewReno :=
  { r with cwnd := if r.cwnd > 2 ^ 32 - 1 - bytes then 2 ^ 32 - 1 else r.cwnd + bytes }

def start (_ : NewReno) (mss : ℕ) : NewReno :=
  let limit := if 4380 > 2 * mss then 4380 else 2 * mss
  ⟨if 4 * mss < limit then 4 * mss else limit, 2 ^ 32 - 1⟩

def acknowledged (r : NewReno) (bytes mss : ℕ) : NewReno :=
  if r.cwnd < r.ssthresh then r.grow (if bytes < mss then bytes else mss)
  else
    let step := mss * mss / r.cwnd
    r.grow (if step ≠ 0 then step else 1)

def enterRecovery (_ : NewReno) (flight mss : ℕ) : NewReno :=
  grow ⟨half flight mss, half flight mss⟩ (3 * mss)

def partialAck (r : NewReno) (bytes mss : ℕ) : NewReno :=
  grow { r with cwnd := if r.cwnd > bytes then r.cwnd - bytes else 0 } mss

def exitRecovery (r : NewReno) (flight mss : ℕ) : NewReno :=
  let pipe := (if flight > mss then flight else mss) + mss
  { r with cwnd := if r.ssthresh < pipe then r.ssthresh else pipe }

def timeout (_ : NewReno) (flight mss : ℕ) : NewReno := ⟨mss, half flight mss⟩

instance : CongestionControl NewReno where
  fresh := {}
  start := start
  acknowledged := acknowledged
  enterRecovery := enterRecovery
  duplicate := grow
  partialAck := partialAck
  exitRecovery := exitRecovery
  timeout := timeout
  window := cwnd
  threshold := ssthresh

end NewReno

end ObfuscationKernel.Net
