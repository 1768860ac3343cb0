/-
# The store-and-forward queue

The SQLite table behind `solariSpool.c`: rows in `rowId` order, ids drawn from an
`AUTOINCREMENT` counter and so never reused (`Lib.Serial`).  Each statement of the source is
an operation on it.

    push   INSERT with the next id, ready at once
    peek   the first row that is ready
    ack    DELETE the row
    nack   count the attempt and put the row off by the back-off
-/
import SolariNet.Lib.Table
import SolariNet.Wire.Basic

namespace SolariNet

open Lib

structure SpoolRow where
  rowId : Nat
  frame : Bytes
  attempts : Nat
  enqueuedAt : Nat
  nextRetryAt : Nat

abbrev Spool : Type := Serial SpoolRow.rowId

/-- `backoffMs`: `1000 · 2^(attempts-1)`, doubled until it reaches the cap of a minute. -/
def backoffMs (attempts : Nat) : Nat := min (1000 * 2 ^ (attempts - 1)) 60000

def SpoolRow.retry (now : Nat) (r : SpoolRow) : SpoolRow :=
  { r with attempts := r.attempts + 1, nextRetryAt := now + backoffMs (r.attempts + 1) }

namespace Spool

def push (s : Spool) (now : Nat) (frame : Bytes) : Spool :=
  Serial.push s (fun rowId => ⟨rowId, frame, 0, now, 0⟩) fun _ => rfl

def peek (s : Spool) (now : Nat) : Option SpoolRow :=
  s.rows.find? fun r => r.nextRetryAt ≤ now

def ack (s : Spool) (rowId : Nat) : Spool := Serial.delete s fun r => r.rowId = rowId

def nack (s : Spool) (now rowId : Nat) : Spool :=
  Serial.update s (fun r => if r.rowId = rowId then r.retry now else r) fun r => by
    split <;> rfl

def Holds (s : Spool) (frame : Bytes) : Prop := ∃ r ∈ s.rows, r.frame = frame

theorem holds_push {now : Nat} :
    Holds (push s now frame) g ↔ Holds s g ∨ g = frame := by
  constructor
  · intro h
    obtain ⟨r, hr, hg⟩ := h
    rcases Serial.mem_push.1 hr with h | h
    · exact .inl ⟨r, h, hg⟩
    · subst h
      exact .inr hg.symm
  · intro h
    rcases h with ⟨r, hr, hg⟩ | h
    · exact ⟨r, Serial.mem_push.2 (.inl hr), hg⟩
    · exact ⟨_, Serial.mem_push.2 (.inr rfl), h.symm⟩

theorem holds_nack {now rowId : Nat} :
    Holds (nack s now rowId) g ↔ Holds s g := by
  constructor
  · intro h
    obtain ⟨r, hr, hg⟩ := h
    obtain ⟨q, hq, rfl⟩ := List.mem_map.1 hr
    refine ⟨q, hq, ?_⟩
    split at hg <;> exact hg
  · intro h
    obtain ⟨q, hq, hg⟩ := h
    refine ⟨_, List.mem_map.2 ⟨q, hq, rfl⟩, ?_⟩
    split <;> exact hg

theorem mem_of_peek {now : Nat} (h : peek s now = some r) : r ∈ s.rows :=
  List.mem_of_find?_eq_some h

end Spool

end SolariNet
