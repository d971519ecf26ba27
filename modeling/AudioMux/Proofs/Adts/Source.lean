/-
Sources that do not fail.

A steady source hands out the same bytes however they are cut up, and
however often a read is interrupted: gathering some of them gives the
first ones and leaves the others (`readFull_steady`).
-/
import AudioMux.Adts.Source

namespace AudioMux.Adts.Source

/-- All bytes in events, in order. -/
def handedOut : List ReadEvent → Bytes
  | [] => []
  | .data bytes :: rest => bytes ++ handedOut rest
  | _ :: rest => handedOut rest

/-- No read fails, and none finds nothing as long as there is more. -/
def SteadyEvents : List ReadEvent → Prop
  | [] => True
  | .data bytes :: rest =>
      (bytes = [] → handedOut rest = []) ∧ SteadyEvents rest
  | .interrupted :: rest => SteadyEvents rest
  | .failed _ :: _ => False

/-- All bytes of a source. -/
def bytes (source : Source) : Bytes := handedOut source.events

/-- A source that hands out all its bytes. -/
structure Steady (source : Source) : Prop where
  failure : source.failure? = none
  events : SteadyEvents source.events

theorem bytes_ofBytes (input : Bytes) : (ofBytes input).bytes = input :=
  List.append_nil input

theorem steady_ofBytes (input : Bytes) : (ofBytes input).Steady :=
  ⟨rfl, fun _ => rfl, trivial⟩

theorem handedOut_putBack (piece : Bytes) (rest : List ReadEvent) :
    handedOut (putBack piece rest) = piece ++ handedOut rest := by
  cases piece <;> rfl

theorem steadyEvents_putBack {rest : List ReadEvent}
    (h : SteadyEvents rest) (piece : Bytes) :
    SteadyEvents (putBack piece rest) := by
  cases piece with
  | nil => exact h
  | cons byte piece => exact ⟨nofun, h⟩

/-- Gathering goes through the events, until there are bytes enough. -/
theorem gather_steady {events : List ReadEvent} (h : SteadyEvents events)
    (gathered : Bytes) {count : Nat} (hcount : 0 < count) :
    ∃ rest, gather none gathered count events
          = (.ok (gathered.reverse ++ (handedOut events).take count), rest)
        ∧ SteadyEvents rest
        ∧ handedOut rest = (handedOut events).drop count := by
  induction events generalizing gathered count with
  | nil =>
      refine ⟨[], ?_, trivial, List.drop_nil.symm⟩
      show (Except.ok gathered.reverse, []) = _
      rw [handedOut, List.take_nil, List.append_nil]
  | cons event events ih =>
      cases event with
      | interrupted => exact ih h gathered hcount
      | failed failure => cases h
      | data piece =>
          obtain ⟨hend, hrest⟩ := h
          have hbytes : handedOut (.data piece :: events)
              = piece ++ handedOut events := rfl
          rw [hbytes]
          unfold gather
          by_cases hempty : piece = []
          · subst hempty
            refine ⟨events, ?_, hrest, ?_⟩
            · rw [hend rfl]
              simp
            · rw [hend rfl]
              simp
          rw [if_neg (by simpa using hempty)]
          by_cases hshort : piece.length < count
          · obtain ⟨rest, hgather, hsteady, hleft⟩ :=
              ih hrest (piece.reverse ++ gathered)
                (Nat.sub_pos_of_lt hshort)
            rw [if_pos (by rw [List.length_take]; omega)]
            refine ⟨rest, hgather.trans ?_, hsteady, ?_⟩
            · rw [List.reverse_append, List.reverse_reverse,
                List.append_assoc, List.take_append,
                List.take_of_length_le (Nat.le_of_lt hshort)]
            · rw [hleft, List.drop_append,
                List.drop_of_length_le (Nat.le_of_lt hshort),
                List.nil_append]
          · have henough : count ≤ piece.length := Nat.le_of_not_lt hshort
            rw [if_neg (by rw [List.length_take]; omega)]
            refine ⟨putBack (piece.drop count) events, ?_,
              steadyEvents_putBack hrest _, ?_⟩
            · rw [List.take_append_of_le_length henough]
            · rw [handedOut_putBack, List.drop_append_of_le_length henough]

/-- A read takes the first bytes of a steady source, as far as there are
any. -/
theorem readFull_steady {source : Source} (h : source.Steady)
    (count : Nat) :
    ∃ rest, readFull count source = .ok (source.bytes.take count) rest
      ∧ rest.Steady ∧ rest.bytes = source.bytes.drop count := by
  unfold readFull
  by_cases hcount : count = 0
  · subst hcount
    exact ⟨source, rfl, h, rfl⟩
  obtain ⟨rest, hgather, hsteady, hleft⟩ :=
    gather_steady h.events [] (Nat.pos_of_ne_zero hcount)
  rw [← h.failure] at hgather
  rw [if_neg hcount, hgather]
  exact ⟨{ source with events := rest }, rfl, ⟨h.failure, hsteady⟩, hleft⟩

end AudioMux.Adts.Source
