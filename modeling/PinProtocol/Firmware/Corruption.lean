import PinProtocol.Firmware.Invariant

/-!
# Corruption — what an invalid packet does to the rest of a run

`mainloop` does not skip a packet that fails `packet_valid`, it returns.  So the run is that of the
valid packets alone if and only if those in front of the first invalid packet are accepted, and
nothing that the device would have answered comes behind it (`corrupted_ignored_iff`).
-/

namespace PinProtocol

open Bits Control

/-! ## Packets that the device never answers -/

/-- A packet that leaves the device as it is, without a reply. -/
def Silent (b : Build) (p : Packet) : Prop :=
  p.command = cmdReset ∨ 8 < p.command.toNat ∨
    (b.disableFailsafe = true ∧ (p.command = cmdGetFailsafe ∨ p.command = cmdSetFailsafe))

/-- `packet_valid(&p)` -/
def Packet.isValid (p : Packet) : Bool :=
  packetValid p == some true

/-- What comes in front of the first invalid packet is accepted, and no valid packet behind it is
one that the device answers. -/
def Undisturbed (b : Build) (d : Device) (ps : List Packet) : Prop :=
  AllAccepted b d (ps.takeWhile Packet.isValid) ∧
    ∀ p ∈ ps.dropWhile Packet.isValid, p.isValid = true → Silent b p

section Silent

variable {b : Build} {d d' : Device} {p : Packet} {r : Option Packet}

theorem silent_of_serves_none (h : Serves b d p d' none) : Silent b p ∧ d' = d := by
  cases h with
  | reset h => exact ⟨.inl h, rfl⟩
  | noFailsafe h hb => exact ⟨.inr (.inr ⟨hb, h⟩), rfl⟩
  | unknown h => exact ⟨.inr (.inl h), rfl⟩

theorem dispatch_silent (h : Silent b p) : dispatch b d p = some (d, []) := by
  rcases h with h | h | ⟨hb, h | h⟩
  · exact dispatch_reset h
  · exact dispatch_default h
  · rw [dispatch_getFailsafe h, if_pos hb]
  · rw [dispatch_setFailsafe h, if_pos hb]

/-- The packets that are treated without a reply are the silent ones. -/
theorem dispatch_nil (hd : d.Ready b) (h : dispatch b d p = some (d', [])) :
    Silent b p ∧ d' = d := by
  rcases dispatch_serves hd h with ⟨r, hserves, hnil⟩
  cases r with
  | none => exact silent_of_serves_none hserves
  | some q => simp [replyFrames] at hnil

end Silent

/-! ## One packet more in front -/

section Undisturbed

variable {b : Build} {d : Device} {p : Packet} {ps : List Packet}

theorem undisturbed_cons_invalid (hp : p.isValid = false) :
    Undisturbed b d (p :: ps) ↔ ∀ q ∈ ps, q.isValid = true → Silent b q := by
  have hfalse : ¬ p.isValid = true := by simp [hp]
  rw [Undisturbed, List.takeWhile_cons_of_neg hfalse, List.dropWhile_cons_of_neg hfalse,
    List.forall_mem_cons]
  exact ⟨fun h => h.2.2, fun h => ⟨trivial, fun hvalid => absurd hvalid hfalse, h⟩⟩

theorem undisturbed_cons_valid (hd : d.Ready b) (hp : p.isValid = true) :
    Undisturbed b d (p :: ps) ↔ ∃ r, dispatch b d p = some r ∧ Undisturbed b r.1 ps := by
  rw [Undisturbed, List.takeWhile_cons_of_pos hp, List.dropWhile_cons_of_pos hp,
    allAccepted_cons hd]
  constructor
  · rintro ⟨⟨r, hr, hacc⟩, hsilent⟩
    exact ⟨r, hr, hacc, hsilent⟩
  · rintro ⟨r, hr, hacc, hsilent⟩
    exact ⟨⟨r, hr, hacc⟩, hsilent⟩

end Undisturbed

/-! ## The loop, packet by packet -/

section Loop

variable {b : Build} {nbPins : BitVec 8} {d : Device} {chunk : Buffer} {p : Packet}

theorem mainloop_cons_valid (hread : connectionRead b chunk = some (.packet p))
    (hp : p.isValid = true) (chunks : List Buffer) :
    mainloop b d (chunk :: chunks) =
      (dispatch b d p).bind fun r =>
        (mainloop b r.1 chunks).map fun s => (s.1, r.2 ++ s.2) := by
  have hvalid : packetValid p = some true := by simpa [Packet.isValid] using hp
  simp only [mainloop, mainloopStep, hread, hvalid, Option.bind_eq_bind, Option.bind_some, if_true]
  cases dispatch b d p <;> rfl

theorem mainloop_cons_invalid (hread : connectionRead b chunk = some (.packet p))
    (hp : p.isValid = false) (chunks : List Buffer) :
    mainloop b d (chunk :: chunks) = some (d, []) := by
  have hdata := Nat.le_of_eq (intact_of_connectionRead hread).symm
  have hvalid : packetValid p = some false := by
    rw [Packet.isValid, packetValid_eq hdata, beq_eq_false_iff_ne] at hp
    rw [packetValid_eq hdata]
    cases h : checksumOf p == p.checksum with
    | true => exact absurd (congrArg some h) hp
    | false => rfl
  simp only [mainloop, mainloopStep, hread, hvalid, Option.bind_eq_bind, Option.bind_some]
  rfl

theorem Packet.isValid.intact (hread : connectionRead b chunk = some (.packet p))
    (hp : p.isValid = true) : p.Intact :=
  ⟨intact_of_connectionRead hread, by simpa [Packet.isValid] using hp⟩

/-- A run of valid packets does nothing at all if and only if every packet is silent. -/
theorem mainloop_silent_iff (hd : Reachable b nbPins d) {received : List (Buffer × Packet)}
    (hread : ∀ r ∈ received, connectionRead b r.1 = some (.packet r.2))
    (hvalid : ∀ r ∈ received, r.2.isValid = true) :
    mainloop b d (received.map Prod.fst) = some (d, []) ↔ ∀ r ∈ received, Silent b r.2 := by
  induction received with
  | nil => simp [mainloop]
  | cons r rest ih =>
      have ih := ih (fun q hq => hread q (List.mem_cons_of_mem r hq))
        fun q hq => hvalid q (List.mem_cons_of_mem r hq)
      rw [List.map_cons, mainloop_cons_valid (hread r List.mem_cons_self)
        (hvalid r List.mem_cons_self), List.forall_mem_cons]
      constructor
      · intro h
        rcases Option.bind_eq_some_iff.mp h with ⟨⟨d', replies⟩, hrun, h⟩
        rcases Option.map_eq_some_iff.mp h with ⟨⟨e, rs⟩, hrest, heq⟩
        have hpair := Prod.mk.inj heq
        obtain ⟨rfl, rfl⟩ : replies = [] ∧ rs = [] := List.append_eq_nil_iff.mp hpair.2
        obtain ⟨hsilent, rfl⟩ := dispatch_nil hd.ready hrun
        obtain rfl : e = d' := hpair.1
        exact ⟨hsilent, ih.mp hrest⟩
      · rintro ⟨hsilent, hrest⟩
        rw [dispatch_silent hsilent, Option.bind_some, ih.mpr hrest]
        rfl

end Loop

/-! ## Runs with and without their invalid packets -/

theorem prepend_injective {α β : Type} (xs : List β) :
    Function.Injective fun s : α × List β => (s.1, xs ++ s.2) := by
  intro s t h
  have hpair := Prod.mk.inj h
  exact Prod.ext hpair.1 (List.append_cancel_left hpair.2)

/-- Two results that are mapped alike come to the same. -/
theorem map_eq_some_both {α β : Type} {f : α → β} (hf : Function.Injective f) {x y : Option α} :
    (∃ s, x.map f = some s ∧ y.map f = some s) ↔ ∃ s, x = some s ∧ y = some s := by
  constructor
  · rintro ⟨_, hx, hy⟩
    obtain ⟨s, hxs, rfl⟩ := Option.map_eq_some_iff.mp hx
    obtain ⟨s', hys, heq⟩ := Option.map_eq_some_iff.mp hy
    exact ⟨s, hxs, hf heq ▸ hys⟩
  · rintro ⟨s, rfl, rfl⟩
    exact ⟨f s, rfl, rfl⟩

/-- The loop does with the received packets what it does with the valid ones among them, state and
replies alike and neither run leaving its arrays, if and only if the invalid ones disturb
nothing. -/
theorem corrupted_ignored_iff {b : Build} {nbPins : BitVec 8} {d : Device}
    (hd : Reachable b nbPins d) {received : List (Buffer × Packet)}
    (hread : ∀ r ∈ received, connectionRead b r.1 = some (.packet r.2)) :
    (∃ s, mainloop b d (received.map Prod.fst) = some s ∧
        mainloop b d ((received.filter fun r => r.2.isValid).map Prod.fst) = some s) ↔
      Undisturbed b d (received.map Prod.snd) := by
  induction received generalizing d with
  | nil => exact iff_of_true ⟨_, rfl, rfl⟩ ⟨trivial, by simp⟩
  | cons r rest ih =>
      have hfirst := hread r List.mem_cons_self
      have hrest : ∀ q ∈ rest, connectionRead b q.1 = some (.packet q.2) :=
        fun q hq => hread q (List.mem_cons_of_mem r hq)
      cases hp : r.2.isValid with
      | true =>
          -- both runs treat the packet
          have hkeep : (r :: rest).filter (fun r => r.2.isValid) =
              r :: rest.filter fun r => r.2.isValid := List.filter_cons_of_pos hp
          rw [hkeep, List.map_cons, List.map_cons, List.map_cons,
            mainloop_cons_valid hfirst hp, mainloop_cons_valid hfirst hp,
            undisturbed_cons_valid hd.ready hp]
          cases hrun : dispatch b d r.2 with
          | none => simp
          | some s =>
              have hnext := hd.serve (Packet.isValid.intact hfirst hp) hrun
              have htail := ih hnext hrest
              simp only [Option.bind_some, Option.some.injEq, exists_eq_left']
              rw [← htail]
              exact map_eq_some_both (prepend_injective (α := Device) s.2)
      | false =>
          -- the loop ends here, the other run goes on
          have hkept : ∀ q ∈ rest.filter fun r => r.2.isValid, q ∈ rest ∧ q.2.isValid = true :=
            fun q hq => List.mem_filter.mp hq
          have hsilent := mainloop_silent_iff hd (fun q hq => hrest q (hkept q hq).1)
            fun q hq => (hkept q hq).2
          have hdrop : (r :: rest).filter (fun r => r.2.isValid) =
              rest.filter fun r => r.2.isValid := List.filter_cons_of_neg (by rw [hp]; decide)
          rw [hdrop, List.map_cons, List.map_cons, mainloop_cons_invalid hfirst hp,
            undisturbed_cons_invalid hp]
          simp only [Option.some.injEq, exists_eq_left', hsilent, List.mem_filter, and_imp,
            List.forall_mem_map]

/-- Two pings and a corrupted one behind them: both runs answer the two. -/
theorem corrupted_ignored_iff_last :
    let d := initialDevice hostBuild firmwareNbPins
    let ping : Packet := ⟨0x20#8, 0#16, [], 0xDF#8⟩
    let bad : Packet := ⟨0x20#8, 0#16, [], 0xDE#8⟩
    let received := [(frameOf ping, ping), (frameOf ping, ping), (frameOf bad, bad)]
    ∃ s, mainloop hostBuild d (received.map Prod.fst) = some s ∧
      mainloop hostBuild d ((received.filter fun r => r.2.isValid).map Prod.fst) = some s := by
  intro d ping bad received
  have hread : ∀ r ∈ received, connectionRead hostBuild r.1 = some (.packet r.2) := by
    decide +kernel
  have hfront : (received.map Prod.snd).takeWhile Packet.isValid = [ping, ping] := by
    decide +kernel
  have hbehind : (received.map Prod.snd).dropWhile Packet.isValid = [bad] := by decide +kernel
  have hbad : ¬ bad.isValid = true := by decide +kernel
  have hacc : ∀ d', Accepts hostBuild d' ping := by
    intro d'
    have hcommand : ping.command.toNat = 2 := by decide
    simp only [Accepts, hcommand]
  refine (corrupted_ignored_iff (.init (initDeviceContent_eq _ _)) hread).mpr ⟨?_, ?_⟩
  · rw [hfront]
    exact ⟨hacc d, fun r _ => ⟨hacc r.1, fun _ _ => trivial⟩⟩
  · intro p hp hvalid
    rw [hbehind, List.mem_singleton] at hp
    rw [hp] at hvalid
    exact absurd hvalid hbad

/-- A corrupted ping in front of another one, which is never served. -/
theorem not_corrupted_ignored_first :
    let d := initialDevice hostBuild firmwareNbPins
    let ping : Packet := ⟨0x20#8, 0#16, [], 0xDF#8⟩
    let bad : Packet := ⟨0x20#8, 0#16, [], 0xDE#8⟩
    packetValid bad = some false ∧
      mainloop hostBuild d [frameOf bad, frameOf ping] = some (d, []) ∧
      (mainloop hostBuild d [frameOf ping]).map (fun r => r.2.length) = some 1 := by
  decide +kernel

end PinProtocol
