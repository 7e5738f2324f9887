import Miroir.Data.Records

/-!
# Tailing the kernel log

`tailKmsg` drains the log on every poll and hands the complete records to its handler. A record that
is cut off at the end of a drain is carried to the next one. A drain reads until an error that is
not EPIPE, or until its cap.

`tail_framed`: whatever the reads return and wherever the drains end, the records handed over are
those of the stream that was read, and what is carried is its tail.
-/

namespace Miroir.Kmsg

open Records

/-- What a read fails with: EPIPE where the ring has overwritten records, or anything else, such as
the deadline. -/
inductive ReadErr where
  | epipe | other
  deriving DecidableEq

/-- What one `Read` returns. -/
structure Read where
  data : List UInt8
  err : Option ReadErr

def newline : UInt8 := 10

def kmsgReadCap : Nat := 8192

/-- The loop of `drainKmsg`: the bytes it reads, and the reads that are left. A read that is not
there runs into the deadline. -/
def readLoop : Nat → List Read → List UInt8 × List Read
  | 0, f => ([], f)
  | _ + 1, [] => ([], [])
  | n + 1, r :: f =>
    if r.err = some .other then (r.data, f)
    else
      let (data, f) := readLoop n f
      (r.data ++ data, f)

/-- The lines, the rest and the reads that are left. -/
def drainKmsg (f : List Read) (carry : List UInt8) : List (List UInt8) × List UInt8 × List Read :=
  let (read, f) := readLoop kmsgReadCap f
  let data := carry ++ read
  let lines := data.splitOn newline
  let rest := if data.getLast? = some newline then [] else lines.getLastD []
  (lines.dropLast, rest, f)

/-- The loop of `tailKmsg` between two polls, with the calls of the handler so far. -/
structure Tail where
  f : List Read
  carry : List UInt8 := []
  replay : Bool := true
  handled : List (List (List UInt8) × Bool) := []

/-- One poll; the log may not be open. -/
def Tail.poll (t : Tail) (isOpen : Bool) : Tail :=
  if isOpen then
    let (lines, rest, f) := drainKmsg t.f t.carry
    { f, carry := rest, replay := false, handled := t.handled ++ [(lines, t.replay)] }
  else { t with handled := t.handled ++ [([], false)] }

def tailKmsg (f : List Read) (polls : List Bool) : Tail := polls.foldl Tail.poll { f }

/-- The records handed over so far. -/
def Tail.records (t : Tail) : List (List UInt8) := t.handled.flatMap Prod.fst

/-- The loop takes a first part of the reads, and one at least if its cap allows. -/
theorem readLoop_spec (n : Nat) (f : List Read) :
    ∃ read, f = read ++ (readLoop n f).2 ∧ (readLoop n f).1 = read.flatMap Read.data ∧
      (0 < n → f = [] ∨ 0 < read.length) := by
  induction n generalizing f with
  | zero => exact ⟨[], rfl, rfl, nofun⟩
  | succ n ih =>
    cases f with
    | nil => exact ⟨[], rfl, rfl, fun _ => .inl rfl⟩
    | cons r f =>
      simp only [readLoop]
      split_ifs
      · exact ⟨[r], rfl, by simp, by simp⟩
      · obtain ⟨read, hf, hdata, -⟩ := ih f
        exact ⟨r :: read, by rw [List.cons_append, ← hf], by simp [hdata], by simp⟩

/-- A drain frames what was carried and what it reads, and it reads on. -/
theorem drainKmsg_spec (f : List Read) (carry : List UInt8) :
    ∃ read, f = read ++ (drainKmsg f carry).2.2 ∧ (f = [] ∨ 0 < read.length) ∧
      Framed newline (carry ++ read.flatMap Read.data) (drainKmsg f carry).1
        (drainKmsg f carry).2.1 := by
  obtain ⟨read, hf, hdata, hread⟩ := readLoop_spec kmsgReadCap f
  refine ⟨read, hf, hread (by decide), ?_⟩
  obtain ⟨rs, t, h⟩ := exists_framed newline (carry ++ read.flatMap Read.data)
  have hlines : (drainKmsg f carry).1 = rs := by
    simp [drainKmsg, hdata, h.splitOn_eq]
  have hrest : (drainKmsg f carry).2.1 = t := by
    simp only [drainKmsg, hdata, h.splitOn_eq]
    split_ifs with hlast
    · exact (h.tail_eq_nil hlast).symm
    · simp
  rwa [hlines, hrest]

/-- The tail has handed over and carries the stream that `read` returns, in `n` drains. -/
structure Tail.Follows (t : Tail) (f read : List Read) (n : Nat) : Prop where
  reads : f = read ++ t.f
  framed : Framed newline (read.flatMap Read.data) t.records t.carry
  drained : t.f = [] ∨ n ≤ read.length

theorem Tail.Follows.poll {t : Tail} {f read : List Read} {n : Nat} (h : t.Follows f read n)
    (isOpen : Bool) : ∃ read', (t.poll isOpen).Follows f read' (n + isOpen.toNat) := by
  cases isOpen with
  | false => exact ⟨read, h.reads, by simpa [Tail.poll, Tail.records] using h.framed, h.drained⟩
  | true =>
    obtain ⟨more, hmore, hread, hframed⟩ := drainKmsg_spec t.f t.carry
    refine ⟨read ++ more, ?_, ?_, ?_⟩
    · rw [List.append_assoc]
      exact h.reads.trans (congrArg _ hmore)
    · simpa [Tail.poll, Tail.records] using h.framed.append hframed
    · -- Nothing is left once there was nothing left.
      by_cases hf : t.f = []
      · exact .inl (List.append_eq_nil_iff.mp (hmore ▸ hf)).2
      · rw [List.length_append]
        exact .inr (Nat.add_le_add (h.drained.resolve_left hf) (hread.resolve_left hf))

theorem Tail.Follows.polls {t : Tail} {f read : List Read} {n : Nat} (h : t.Follows f read n)
    (polls : List Bool) :
    ∃ read', (polls.foldl Tail.poll t).Follows f read' (n + polls.count true) := by
  induction polls generalizing t read n with
  | nil => exact ⟨read, h⟩
  | cons isOpen polls ih =>
    obtain ⟨read', h'⟩ := h.poll isOpen
    obtain ⟨read', h'⟩ := ih h'
    refine ⟨read', h'.reads, h'.framed, h'.drained.imp_right fun h => ?_⟩
    cases isOpen <;> simp at h ⊢ <;> omega

/-- For every sequence of reads and every sequence of polls: the stream is what the reads so far
have returned, the records handed over are its ended lines, in order and each once, and what is
carried is its tail. Both are functions of the stream, however it was cut. Every poll with the log
open takes a read from what is left of them, so the stream is read to its end. -/
theorem tail_framed (f : List Read) (polls : List Bool) :
    let t := tailKmsg f polls
    ∃ read, f = read ++ t.f ∧ Framed newline (read.flatMap Read.data) t.records t.carry ∧
      (read.flatMap Read.data).splitOn newline = t.records ++ [t.carry] ∧
      (t.f = [] ∨ polls.count true ≤ read.length) := by
  have hstart : ({ f } : Tail).Follows f [] 0 := ⟨rfl, .nil, .inr (Nat.zero_le _)⟩
  obtain ⟨read, h⟩ := hstart.polls polls
  rw [Nat.zero_add] at h
  exact ⟨read, h.reads, h.framed, h.framed.splitOn_eq, h.drained⟩

end Miroir.Kmsg
