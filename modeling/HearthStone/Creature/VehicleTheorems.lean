/-
HearthStone.Creature.VehicleTheorems — does every passenger have a seat,
and every seat its passenger?

* `Linked` — what `m_passengers` says and what the players say is the
  same. While `RemovePassenger` empties a vehicle, seat 0 is an exception.
* `Frees` — a world with some seats emptied, and nothing else changed
  about the seats.
* `removePassenger_spec`, `addPassenger_spec` — one call.
* `Keeps` — the condition: the seat taken exists, the passenger has no
  charm and no vehicle, and the vehicle is not filled, since a full one
  is not reported as such.
* `seats_run` — in every run of calls that meet it, the two sides agree, no
  call reads a seat that is not there, and `IsFull` is right.
-/
import HearthStone.Lib.Run
import HearthStone.Creature.Vehicle

namespace HearthStone.VehicleSeats

open Lib World

variable {w w' : World} {v s i p q : Nat} {veh : Vehicle} {hole : Option Nat}

/-! ## Writes -/

@[simp] theorem setPlayer_same (w : World) (p : Nat) (plr : Player) :
    (w.setPlayer p plr).players p = plr := Function.update_self ..

theorem setPlayer_other (plr : Player) (h : q ≠ p) :
    (w.setPlayer p plr).players q = w.players q := Function.update_of_ne h ..

@[simp] theorem setPassenger_players (w : World) (v i : Nat) (x : Option Nat) :
    (w.setPassenger v i x).players = w.players := rfl

theorem setPassenger_passengers (w : World) (v i : Nat) (x : Option Nat) (u s : Nat) :
    (w.setPassenger v i x).passengers u s = if u = v ∧ s = i then x else w.passengers u s := by
  unfold setPassenger
  by_cases hu : u = v
  · subst hu
    by_cases hs : s = i
    · subst hs
      simp
    · simp [hs]
  · simp [hu]

/-- A seat was cleared: what is seen was there before. -/
theorem of_cleared {u : Nat} (h : (w.setPassenger v i none).passengers u s = some p) :
    ¬ (u = v ∧ s = i) ∧ w.passengers u s = some p := by
  rw [setPassenger_passengers] at h
  split_ifs at h with hus
  exact ⟨hus, h⟩

theorem unlink_other (h : q ≠ p) : (w.unlink v p).players q = w.players q := setPlayer_other _ h

theorem unlink_same : (w.unlink v p).players p =
    { currentVehicle := none, inVehicleSeatId := 255
      currentCharm := if w.passengers v 0 = some p then none else (w.players p).currentCharm } :=
  setPlayer_same ..

/-! ## The two sides -/

/-- The seats and the players agree; seat 0 of `hole` is not looked at. -/
structure Linked (w : World) (hole : Option Nat) : Prop where
  seated : ∀ v s p, w.passengers v s = some p → (s = 0 → hole ≠ some v) →
    (w.players p).currentVehicle = some v ∧ (w.players p).inVehicleSeatId = s
  charm : ∀ v p, w.passengers v 0 = some p → hole ≠ some v →
    (w.players p).currentCharm = some (.vehicle v)
  home : ∀ p v, (w.players p).currentVehicle = some v →
    w.passengers v (w.players p).inVehicleSeatId = some p ∧
      ((w.players p).inVehicleSeatId = 0 → hole ≠ some v)
  away : ∀ p, (w.players p).currentVehicle = none → 8 ≤ (w.players p).inVehicleSeatId
  seat : ∀ v s p, w.passengers v s = some p →
    ∃ veh, w.vehicles v = some veh ∧ s < veh.maxPassengers ∧ veh.vehicleSeats s ≠ none
  eight : ∀ v veh, w.vehicles v = some veh → veh.maxPassengers ≤ 8
  front : ∀ v s p, w.passengers v s = some p → w.passengers v 0 ≠ none

/-- Some seats were emptied; the vehicles have the seats they had. -/
structure Frees (w w' : World) : Prop where
  passengers : ∀ v s, w'.passengers v s = w.passengers v s ∨ w'.passengers v s = none
  vehicles : ∀ v veh', w'.vehicles v = some veh' → ∃ veh, w.vehicles v = some veh ∧
    veh'.vehicleSeats = veh.vehicleSeats ∧ veh'.maxPassengers = veh.maxPassengers ∧
    veh'.passengerCount = veh.passengerCount

theorem Frees.refl (w : World) : Frees w w :=
  ⟨fun _ _ => Or.inl rfl, fun _ veh h => ⟨veh, h, rfl, rfl, rfl⟩⟩

theorem Frees.trans {w'' : World} (h : Frees w w') (h' : Frees w' w'') : Frees w w'' := by
  refine ⟨?_, ?_⟩
  · intro v s
    rcases h'.passengers v s with hsame | hnone
    · rw [hsame]
      exact h.passengers v s
    · exact Or.inr hnone
  · intro v veh'' hveh''
    obtain ⟨veh', hveh', hseats', hmax', hcount'⟩ := h'.vehicles v veh'' hveh''
    obtain ⟨veh, hveh, hseats, hmax, hcount⟩ := h.vehicles v veh' hveh'
    exact ⟨veh, hveh, hseats'.trans hseats, hmax'.trans hmax, hcount'.trans hcount⟩

/-- A flag of the vehicle is no concern of the seats. -/
theorem modifyVehicle_lookup {f : Vehicle → Vehicle} {u : Nat} {veh' : Vehicle}
    (h : (w.modifyVehicle v f).vehicles u = some veh') :
    ∃ veh, w.vehicles u = some veh ∧ veh' = if u = v then f veh else veh := by
  unfold modifyVehicle at h
  by_cases hu : u = v
  · subst hu
    simp only [Function.update_self, Option.map_eq_some_iff] at h
    obtain ⟨veh, hveh, rfl⟩ := h
    exact ⟨veh, hveh, by simp⟩
  · simp only [Function.update_of_ne hu] at h
    exact ⟨veh', h, by simp [hu]⟩

/-- The write leaves the seats of the vehicle. -/
def KeepsSeats (f : Vehicle → Vehicle) : Prop :=
  ∀ veh, (f veh).vehicleSeats = veh.vehicleSeats ∧ (f veh).maxPassengers = veh.maxPassengers ∧
    (f veh).passengerCount = veh.passengerCount

theorem Frees.modify {f : Vehicle → Vehicle} (hf : KeepsSeats f) (w : World) (v : Nat) :
    Frees w (w.modifyVehicle v f) := by
  refine ⟨fun _ _ => Or.inl rfl, ?_⟩
  intro u veh' h
  obtain ⟨veh, hveh, rfl⟩ := modifyVehicle_lookup h
  refine ⟨veh, hveh, ?_⟩
  split_ifs
  · exact hf veh
  · exact ⟨rfl, rfl, rfl⟩

theorem Linked.modify {f : Vehicle → Vehicle} (h : Linked w hole) (hf : KeepsSeats f) :
    Linked (w.modifyVehicle v f) hole := by
  refine ⟨h.seated, h.charm, h.home, h.away, ?_, ?_, h.front⟩
  · intro u s p hp
    obtain ⟨veh, hveh, hlt, hseat⟩ := h.seat u s p hp
    by_cases hu : u = v
    · subst hu
      refine ⟨f veh, by simp [modifyVehicle, hveh], ?_, ?_⟩
      · rw [(hf veh).2.1]
        exact hlt
      · rw [(hf veh).1]
        exact hseat
    · exact ⟨veh, by simp [modifyVehicle, hu, hveh], hlt, hseat⟩
  · intro u veh' hveh'
    obtain ⟨veh, hveh, -, hmax, -⟩ := (Frees.modify hf w v).vehicles u veh' hveh'
    rw [hmax]
    exact h.eight u veh hveh

/-! ## Leaving -/

/-- One passenger, not of seat 0, is unlinked and his seat cleared. -/
theorem Linked.unseat (h : Linked w hole) (hq : w.passengers v i = some q) (hi : i ≠ 0) :
    Linked ((w.unlink v q).setPassenger v i none) hole ∧
      Frees w ((w.unlink v q).setPassenger v i none) := by
  obtain ⟨hcurrent, hseat⟩ := h.seated v i q hq fun h0 => absurd h0 hi
  -- nobody else's seat is his
  have hne : ∀ u s p, ¬ (u = v ∧ s = i) → w.passengers u s = some p →
      (s = 0 → hole ≠ some u) → p ≠ q := by
    rintro u s p hus hp hhole rfl
    obtain ⟨hu, hs⟩ := h.seated u s p hp hhole
    exact hus ⟨Option.some.inj (hu.symm.trans hcurrent), hs.symm.trans hseat⟩
  refine ⟨⟨?_, ?_, ?_, ?_, ?_, h.eight, ?_⟩, ⟨?_, ?_⟩⟩
  · intro u s p hp hhole
    obtain ⟨hus, hp⟩ := of_cleared hp
    rw [setPassenger_players, unlink_other (hne u s p hus hp hhole)]
    exact h.seated u s p hp hhole
  · intro u p hp hhole
    obtain ⟨hus, hp⟩ := of_cleared hp
    rw [setPassenger_players, unlink_other (hne u 0 p hus hp fun _ => hhole)]
    exact h.charm u p hp hhole
  · intro p u hu
    have hpq : p ≠ q := by
      rintro rfl
      rw [setPassenger_players, unlink_same] at hu
      cases hu
    rw [setPassenger_players, unlink_other hpq] at hu ⊢
    obtain ⟨hp, hhole⟩ := h.home p u hu
    refine ⟨?_, hhole⟩
    rw [setPassenger_passengers, if_neg]
    · exact hp
    · rintro ⟨rfl, hs⟩
      rw [hs, hq] at hp
      exact hpq (Option.some.inj hp).symm
  · intro p hp
    by_cases hpq : p = q
    · subst hpq
      rw [setPassenger_players, unlink_same]
      exact Nat.le_of_ble_eq_true rfl
    · rw [setPassenger_players, unlink_other hpq] at hp ⊢
      exact h.away p hp
  · intro u s p hp
    exact h.seat u s p (of_cleared hp).2
  · intro u s p hp
    rw [setPassenger_passengers, if_neg fun hand => hi hand.2.symm]
    exact h.front u s p (of_cleared hp).2
  · intro u s
    rw [setPassenger_passengers]
    split_ifs
    · exact Or.inr rfl
    · exact Or.inl rfl
  · exact fun u veh hveh => ⟨veh, hveh, rfl, rfl, rfl⟩

/-- `RemovePassenger` of a passenger who is not in seat 0. -/
theorem removeLoop_other (depth : Nat) (h : Linked w hole) (hq : w.passengers v i = some q)
    (hi : i ≠ 0) :
    removeLoop (depth + 1) w v q = some ((w.unlink v q).setPassenger v i none) := by
  obtain ⟨-, hseat⟩ := h.seated v i q hq fun h0 => absurd h0 hi
  obtain ⟨veh, hveh, hlt, hexists⟩ := h.seat v i q hq
  have height : ¬ i ≥ 8 := by
    have hmax := h.eight v veh hveh
    omega
  obtain ⟨seat, hs⟩ := Option.ne_none_iff_exists'.1 hexists
  rw [removeLoop, if_neg (hseat ▸ height)]
  simp only [hveh, hseat, hs, hi, if_false]

/-- The loop over the seats behind the first. By induction on the seats
ahead. -/
theorem removeOthers_spec (depth : Nat) (is : List Nat) (his : ∀ i ∈ is, i ≠ 0)
    (h : Linked w hole) :
    ∃ w', is.foldlM (fun (w : World) i =>
        match w.passengers v i with
        | none => some w
        | some q => removeLoop (depth + 1) w v q) w = some w' ∧
      Linked w' hole ∧ Frees w w' ∧ (∀ i ∈ is, w'.passengers v i = none) ∧
      (∀ p, (w.players p).currentVehicle = none → (w'.players p).currentVehicle = none) := by
  induction is generalizing w with
  | nil => exact ⟨w, rfl, h, Frees.refl w, by simp, fun _ hp => hp⟩
  | cons i is ih =>
    have hi : i ≠ 0 := his i List.mem_cons_self
    have hrest : ∀ i ∈ is, i ≠ 0 := fun j hj => his j (List.mem_cons_of_mem _ hj)
    obtain ⟨w₁, hstep, hlinked, hfrees, hgone, hstay⟩ : ∃ w₁,
        (match w.passengers v i with
          | none => some w
          | some q => removeLoop (depth + 1) w v q) = some w₁ ∧
        Linked w₁ hole ∧ Frees w w₁ ∧ w₁.passengers v i = none ∧
        (∀ p, (w.players p).currentVehicle = none → (w₁.players p).currentVehicle = none) := by
      cases hq : w.passengers v i with
      | none => exact ⟨w, rfl, h, Frees.refl w, hq, fun _ hp => hp⟩
      | some q =>
        obtain ⟨hlinked, hfrees⟩ := h.unseat hq hi
        refine ⟨_, removeLoop_other depth h hq hi, hlinked, hfrees, ?_, ?_⟩
        · rw [setPassenger_passengers, if_pos ⟨rfl, rfl⟩]
        · intro p hp
          by_cases hpq : p = q
          · subst hpq
            rw [setPassenger_players, unlink_same]
          · rw [setPassenger_players, unlink_other hpq]
            exact hp
    obtain ⟨w₂, hrun, hlinked₂, hfrees₂, hgone₂, hstay₂⟩ := ih hrest hlinked
    refine ⟨w₂, ?_, hlinked₂, hfrees.trans hfrees₂, ?_, fun p hp => hstay₂ p (hstay p hp)⟩
    · rw [List.foldlM_cons, hstep]
      exact hrun
    · intro j hj
      rcases List.mem_cons.1 hj with rfl | hj
      · rcases hfrees₂.passengers v j with hsame | hnone
        · rw [hsame, hgone]
        · exact hnone
      · exact hgone₂ j hj

/-- Who leaves seat 0 is unlinked first, and the seat is an exception
until the others are out. -/
theorem Linked.open (h : Linked w none) (hp : w.passengers v 0 = some p) :
    Linked (w.unlink v p) (some v) := by
  obtain ⟨hcurrent, hseat⟩ := h.seated v 0 p hp fun _ => by simp
  have hne : ∀ u s q, w.passengers u s = some q → (s = 0 → some v ≠ some u) → q ≠ p := by
    rintro u s q hq hhole rfl
    obtain ⟨hu, hs⟩ := h.seated u s q hq fun _ => by simp
    exact hhole (hs.symm.trans hseat) (hcurrent.symm.trans hu)
  refine ⟨?_, ?_, ?_, ?_, h.seat, h.eight, h.front⟩
  · intro u s q hq hhole
    rw [unlink_other (hne u s q hq hhole)]
    exact h.seated u s q hq fun _ => by simp
  · intro u q hq hhole
    rw [unlink_other (hne u 0 q hq fun _ => hhole)]
    exact h.charm u q hq (by simp)
  · intro q u hu
    have hqp : q ≠ p := by
      rintro rfl
      rw [unlink_same] at hu
      cases hu
    rw [unlink_other hqp] at hu ⊢
    obtain ⟨hq, -⟩ := h.home q u hu
    refine ⟨hq, ?_⟩
    rintro h0 hvu
    rw [h0, ← Option.some.inj hvu, hp] at hq
    exact hqp (Option.some.inj hq).symm
  · intro q hq
    by_cases hqp : q = p
    · subst hqp
      rw [unlink_same]
      exact Nat.le_of_ble_eq_true rfl
    · rw [unlink_other hqp] at hq ⊢
      exact h.away q hq

/-- Everybody is out, and the exception is over. -/
theorem Linked.close (h : Linked w (some v)) (hempty : ∀ s, s ≠ 0 → w.passengers v s = none) :
    Linked (w.setPassenger v 0 none) none := by
  have hout : ∀ u s q, (w.setPassenger v 0 none).passengers u s = some q →
      u ≠ v ∧ w.passengers u s = some q := by
    intro u s q hq
    obtain ⟨hus, hthere⟩ := of_cleared hq
    refine ⟨?_, hthere⟩
    rintro rfl
    have hs : s ≠ 0 := fun h0 => hus ⟨rfl, h0⟩
    rw [hempty s hs] at hthere
    cases hthere
  refine ⟨?_, ?_, ?_, h.away, ?_, h.eight, ?_⟩
  · intro u s q hq _
    obtain ⟨hu, hq⟩ := hout u s q hq
    exact h.seated u s q hq fun _ heq => hu (Option.some.inj heq).symm
  · intro u q hq _
    obtain ⟨hu, hq⟩ := hout u 0 q hq
    exact h.charm u q hq fun heq => hu (Option.some.inj heq).symm
  · intro q u hu
    obtain ⟨hq, hhole⟩ := h.home q u hu
    refine ⟨?_, by simp⟩
    rw [setPassenger_passengers, if_neg]
    · exact hq
    · rintro ⟨rfl, h0⟩
      exact hhole h0 rfl
  · intro u s q hq
    exact h.seat u s q (hout u s q hq).2
  · intro u s q hq
    obtain ⟨hu, hq⟩ := hout u s q hq
    rw [setPassenger_passengers, if_neg fun hand => hu hand.1]
    exact h.front u s q hq

theorem Frees.clear (w : World) (v i : Nat) : Frees w (w.setPassenger v i none) := by
  refine ⟨?_, fun _ veh hveh => ⟨veh, hveh, rfl, rfl, rfl⟩⟩
  intro u s
  rw [setPassenger_passengers]
  split_ifs
  · exact Or.inr rfl
  · exact Or.inl rfl

theorem keepsSeats_dropControl : KeepsSeats fun veh =>
    { veh with safeDelete := veh.safeDelete || veh.tempSpawn } := fun _ => ⟨rfl, rfl, rfl⟩

/-- `RemovePassenger` of a passenger: he has no vehicle any more, and the
two sides agree. -/
theorem removePassenger_spec (h : Linked w none) (hp : w.passengers v s = some p) :
    ∃ w', w.removePassenger v p = some w' ∧ Linked w' none ∧ Frees w w' ∧
      (w'.players p).currentVehicle = none := by
  by_cases hs : s = 0
  · subst hs
    obtain ⟨-, hseat⟩ := h.seated v 0 p hp fun _ => by simp
    obtain ⟨veh, hveh, hlt, hexists⟩ := h.seat v 0 p hp
    obtain ⟨seat, hseat0⟩ := Option.ne_none_iff_exists'.1 hexists
    have hopen : Linked ((w.unlink v p).dropControl v) (some v) :=
      (h.open hp).modify keepsSeats_dropControl
    obtain ⟨w', hrun, hlinked, hfrees, hgone, hstay⟩ :=
      @removeOthers_spec ((w.unlink v p).dropControl v) v (some v) 8
        (List.range' 1 (veh.maxPassengers - 1))
        (fun i hi => by
          have hrange := List.mem_range'_1.1 hi
          omega) hopen
    have hempty : ∀ s, s ≠ 0 → w'.passengers v s = none := by
      intro s hs
      cases hq : w'.passengers v s with
      | none => rfl
      | some q =>
        have hsame : w.passengers v s = some q := by
          rcases hfrees.passengers v s with hsame | hnone
          · exact hsame.symm.trans hq
          · rw [hnone] at hq
            cases hq
        obtain ⟨veh', hveh', hlt', -⟩ := h.seat v s q hsame
        have heq : veh = veh' := Option.some.inj (hveh.symm.trans hveh')
        subst heq
        have hmem : s ∈ List.range' 1 (veh.maxPassengers - 1) := by
          rw [List.mem_range'_1]
          omega
        rw [hgone s hmem] at hq
        cases hq
    refine ⟨w'.setPassenger v 0 none, ?_, hlinked.close hempty, ?_, ?_⟩
    · unfold removePassenger removeLoop
      rw [if_neg (by omega)]
      simp only [hveh, hseat, hseat0, if_true]
      exact congrArg (Option.map _) hrun
    · have hunlink : Frees w (w.unlink v p) :=
        ⟨fun _ _ => Or.inl rfl, fun _ veh h => ⟨veh, h, rfl, rfl, rfl⟩⟩
      have hdrop := Frees.modify keepsSeats_dropControl (w.unlink v p) v
      exact ((hunlink.trans hdrop).trans hfrees).trans (Frees.clear w' v 0)
    · refine hstay p ?_
      have hnone : ((w.unlink v p).players p).currentVehicle = none := by rw [unlink_same]
      exact hnone
  · obtain ⟨hlinked, hfrees⟩ := h.unseat hp hs
    refine ⟨_, removeLoop_other 9 h hp hs, hlinked, hfrees, ?_⟩
    rw [setPassenger_players, unlink_same]

/-! ## Boarding -/

/-- The player is seated and told so. -/
theorem Linked.board (h : Linked w none) (hveh : w.vehicles v = some veh)
    (hfree : w.firstFree v veh = some i) (hseat : veh.vehicleSeats i ≠ none)
    (hwalks : (w.players p).currentVehicle = none) : Linked ((w.sit v i p).board v i p) none := by
  have hfound := List.find?_some hfree
  have hmem := List.mem_of_find?_eq_some hfree
  have hnone : w.passengers v i = none := by simpa using hfound
  have hlt : i < veh.maxPassengers := List.mem_range.1 hmem
  -- those before him are taken
  have hbefore : i ≠ 0 → w.passengers v 0 ≠ none := by
    intro hi h0
    have hcons : List.range veh.maxPassengers = 0 :: (List.range (veh.maxPassengers - 1)).map (· + 1) := by
      obtain ⟨n, hn⟩ : ∃ n, veh.maxPassengers = n + 1 := ⟨veh.maxPassengers - 1, by omega⟩
      rw [hn, List.range_succ_eq_map]
      rfl
    unfold firstFree at hfree
    rw [hcons, List.find?_cons_of_pos (by simp [h0])] at hfree
    exact hi (Option.some.inj hfree).symm
  have hpassengers : ∀ u s, ((w.sit v i p).board v i p).passengers u s =
      if u = v ∧ s = i then some p else w.passengers u s :=
    fun u s => setPassenger_passengers w v i (some p) u s
  have hother : ∀ q, q ≠ p → ((w.sit v i p).board v i p).players q = w.players q := by
    intro q hq
    exact (setPlayer_other _ hq).trans (setPlayer_other _ hq)
  have hself : (((w.sit v i p).board v i p).players p).currentVehicle = some v ∧
      (((w.sit v i p).board v i p).players p).inVehicleSeatId = i ∧
      (i = 0 → (((w.sit v i p).board v i p).players p).currentCharm = some (.vehicle v)) := by
    refine ⟨by simp [World.board, World.sit], by simp [World.board, World.sit], ?_⟩
    intro h0
    simp [World.board, World.sit, h0]
  have hnot : ∀ u s, w.passengers u s ≠ some p := by
    intro u s hp
    obtain ⟨hu, -⟩ := h.seated u s p hp fun _ => by simp
    rw [hwalks] at hu
    cases hu
  refine ⟨?_, ?_, ?_, ?_, ?_, h.eight, ?_⟩
  · intro u s q hq _
    rw [hpassengers] at hq
    split_ifs at hq with hus
    · obtain rfl := Option.some.inj hq
      rw [hus.1, hus.2]
      exact ⟨hself.1, hself.2.1⟩
    · have hqp : q ≠ p := by
        rintro rfl
        exact hnot u s hq
      rw [hother q hqp]
      exact h.seated u s q hq fun _ => by simp
  · intro u q hq _
    rw [hpassengers] at hq
    split_ifs at hq with hus
    · obtain rfl := Option.some.inj hq
      rw [hus.1]
      exact hself.2.2 hus.2.symm
    · have hqp : q ≠ p := by
        rintro rfl
        exact hnot u 0 hq
      rw [hother q hqp]
      exact h.charm u q hq (by simp)
  · intro q u hu
    refine ⟨?_, by simp⟩
    by_cases hqp : q = p
    · subst hqp
      rw [hself.1] at hu
      rw [hself.2.1, hpassengers, if_pos ⟨(Option.some.inj hu).symm, rfl⟩]
    · rw [hother q hqp] at hu ⊢
      obtain ⟨hq, -⟩ := h.home q u hu
      rw [hpassengers, if_neg]
      · exact hq
      · rintro ⟨rfl, hs⟩
        rw [hs, hnone] at hq
        cases hq
  · intro q hq
    have hqp : q ≠ p := by
      rintro rfl
      rw [hself.1] at hq
      cases hq
    rw [hother q hqp] at hq ⊢
    exact h.away q hq
  · intro u s q hq
    rw [hpassengers] at hq
    split_ifs at hq with hus
    · rw [hus.1, hus.2]
      exact ⟨veh, hveh, hlt, hseat⟩
    · exact h.seat u s q hq
  · intro u s q hq
    rw [hpassengers]
    split_ifs with hu0
    · simp
    · rw [hpassengers] at hq
      split_ifs at hq with hus
      · rw [hus.1]
        exact hbefore fun hi => hu0 ⟨hus.1, hi.symm⟩
      · exact h.front u s q hq

/-! ## The law -/

/-- What is expected of vehicles and passengers. -/
structure Law (w : World) : Prop where
  /-- the two sides agree -/
  linked : ∀ v s p, w.passengers v s = some p ↔
    (w.players p).currentVehicle = some v ∧ (w.players p).inVehicleSeatId = s
  /-- a passenger is on a seat that exists -/
  exists_seat : ∀ v s p, w.passengers v s = some p →
    ∃ veh, w.vehicles v = some veh ∧ veh.vehicleSeats s ≠ none
  /-- the vehicle is reported full when all its seats are taken -/
  full : ∀ v veh, w.vehicles v = some veh →
    (veh.isFull = true ↔ ∀ s, veh.vehicleSeats s ≠ none → w.passengers v s ≠ none)

/-- A vehicle has no seats, or one of them is free. -/
def Roomy (w : World) (v : Nat) (veh : Vehicle) : Prop :=
  veh.passengerCount = 0 ∧ (veh.maxPassengers = 0 → ∀ s, veh.vehicleSeats s = none) ∧
    (veh.maxPassengers ≠ 0 → ∃ s, veh.vehicleSeats s ≠ none ∧ w.passengers v s = none)

/-- The invariant. -/
structure Good (w : World) : Prop where
  linked : Linked w none
  roomy : ∀ v veh, w.vehicles v = some veh → Roomy w v veh

theorem Good.law (h : Good w) : Law w := by
  refine ⟨?_, ?_, ?_⟩
  · intro v s p
    constructor
    · intro hp
      exact h.linked.seated v s p hp fun _ => by simp
    · rintro ⟨hv, rfl⟩
      exact (h.linked.home p v hv).1
  · intro v s p hp
    obtain ⟨veh, hveh, -, hseat⟩ := h.linked.seat v s p hp
    exact ⟨veh, hveh, hseat⟩
  · intro v veh hveh
    obtain ⟨hcount, hnone, hfree⟩ := h.roomy v veh hveh
    unfold Vehicle.isFull
    rw [hcount, decide_eq_true_iff]
    constructor
    · intro hmax s hs
      exact absurd (hnone hmax.symm s) hs
    · intro hall
      by_contra hmax
      obtain ⟨s, hs, hpass⟩ := hfree fun h0 => hmax h0.symm
      exact hall s hs hpass

theorem Roomy.frees {veh' : Vehicle} (hfrees : Frees w w') (h : Roomy w v veh)
    (hseats : veh'.vehicleSeats = veh.vehicleSeats)
    (hmax : veh'.maxPassengers = veh.maxPassengers)
    (hcount : veh'.passengerCount = veh.passengerCount) : Roomy w' v veh' := by
  obtain ⟨hzero, hnone, hfree⟩ := h
  refine ⟨hcount.trans hzero, ?_, ?_⟩
  · rw [hmax, hseats]
    exact hnone
  · rw [hmax, hseats]
    intro hne
    obtain ⟨s, hs, hpass⟩ := hfree hne
    refine ⟨s, hs, ?_⟩
    rcases hfrees.passengers v s with hsame | hgone
    · rw [hsame, hpass]
    · exact hgone

theorem Good.of_frees (h : Good w) (hlinked : Linked w' none) (hfrees : Frees w w') :
    Good w' := by
  refine ⟨hlinked, ?_⟩
  intro v veh' hveh'
  obtain ⟨veh, hveh, hseats, hmax, hcount⟩ := hfrees.vehicles v veh' hveh'
  exact (h.roomy v veh hveh).frees hfrees hseats hmax hcount

/-! ## The calls -/

/-- The passenger gets the seat at `i`: it exists, he has no vehicle and
no charm, and another seat stays free. -/
def BoardOk (w : World) (v : Nat) (veh : Vehicle) (p i : Nat) : Prop :=
  (w.players p).currentVehicle = none ∧ (w.players p).currentCharm = none ∧
    veh.vehicleSeats i ≠ none ∧ ∃ s, s ≠ i ∧ veh.vehicleSeats s ≠ none ∧ w.passengers v s = none

theorem addPassenger_spec (h : Good w) (hveh : w.vehicles v = some veh)
    (hinit : veh.maxPassengers = 0 → initSeats w.dbc veh.entry veh = veh)
    (hok : ∀ i, w.firstFree v veh = some i → BoardOk w v veh p i) :
    ∃ w', w.addPassenger v p = some w' ∧ Good w' := by
  have hsame : (if veh.maxPassengers = 0 then initSeats w.dbc veh.entry veh else veh) = veh := by
    split_ifs with hmax
    · exact hinit hmax
    · rfl
  have hworld : w.setVehicle v veh = w := by
    unfold setVehicle
    rw [← hveh, Function.update_eq_self]
  cases hfree : w.firstFree v veh with
  | none =>
    have heq : w.addPassenger v p = some w := by simp [addPassenger, hveh, hsame, hworld, hfree]
    exact ⟨w, heq, h⟩
  | some i =>
    have heq : w.addPassenger v p = w.addToSlot v veh p i := by
      simp [addPassenger, hveh, hsame, hworld, hfree]
    rw [heq]
    obtain ⟨hwalks, hcharm, hseat, s, hsi, hs, hpass⟩ := hok i hfree
    obtain ⟨seat, hseat'⟩ := Option.ne_none_iff_exists'.1 hseat
    refine ⟨(w.sit v i p).board v i p, ?_, h.linked.board hveh hfree hseat hwalks, ?_⟩
    · simp [addToSlot, hseat', hcharm]
    · intro u veh' hveh'
      have hveh'' : w.vehicles u = some veh' := hveh'
      obtain ⟨hcount, hnone, hroom⟩ := h.roomy u veh' hveh''
      have hpassengers : ∀ s, ((w.sit v i p).board v i p).passengers u s =
          if u = v ∧ s = i then some p else w.passengers u s :=
        fun s => setPassenger_passengers w v i (some p) u s
      refine ⟨hcount, hnone, ?_⟩
      intro hmax
      by_cases hu : u = v
      · subst hu
        have hvv : veh = veh' := Option.some.inj (hveh.symm.trans hveh'')
        subst hvv
        exact ⟨s, hs, by rw [hpassengers, if_neg fun hand => hsi hand.2, hpass]⟩
      · obtain ⟨s', hs', hpass'⟩ := hroom hmax
        exact ⟨s', hs', by rw [hpassengers, if_neg fun hand => hu hand.1, hpass']⟩

/-- Seats are filled the same way a second time. -/
theorem initSeats_again (dbc : Dbc) (entry : Nat) (veh : Vehicle) :
    initSeats dbc (initSeats dbc entry veh).entry (initSeats dbc entry veh) =
      initSeats dbc entry veh := by
  unfold initSeats
  cases hentry : dbc.seatID entry with
  | none => simp [hentry]
  | some seatID =>
    simp only [hentry, Vehicle.mk.injEq, true_and, and_true]
    funext i
    split_ifs <;> rfl

theorem seatCount_le (seatID : Nat → Nat) : seatCount seatID ≤ 8 := by
  have hle := List.countP_le_length (p := fun i => decide (seatID i ≠ 0)) (l := List.range 8)
  rwa [List.length_range] at hle

theorem loadVehicle_spec (dbc : Dbc) (entry : Nat) (fromSpell temp : Bool) :
    (loadVehicle dbc entry fromSpell temp).passengerCount = 0 ∧
      (loadVehicle dbc entry fromSpell temp).maxPassengers ≤ 8 ∧
      ((loadVehicle dbc entry fromSpell temp).maxPassengers = 0 →
        ∀ s, (loadVehicle dbc entry fromSpell temp).vehicleSeats s = none) := by
  unfold loadVehicle initSeats
  cases hentry : dbc.seatID entry with
  | none => simp
  | some seatID =>
    refine ⟨rfl, seatCount_le seatID, ?_⟩
    intro hzero s
    have hall := List.countP_eq_zero.1 hzero
    have hs : ¬ (s < 8 ∧ seatID s ≠ 0) := by
      rintro ⟨hlt, hne⟩
      exact hall s (List.mem_range.2 hlt) (by simpa using hne)
    exact if_neg hs

/-- A new vehicle with a free seat, or without seats. -/
theorem Good.create {fromSpell temp : Bool} {entry : Nat} (h : Good w)
    (hnew : w.vehicles v = none)
    (hseats : (loadVehicle w.dbc entry fromSpell temp).maxPassengers = 0 ∨
      ∃ s, (loadVehicle w.dbc entry fromSpell temp).vehicleSeats s ≠ none) :
    Good (w.create v entry fromSpell temp) := by
  obtain ⟨hcount, height, hnone⟩ := loadVehicle_spec w.dbc entry fromSpell temp
  set veh := loadVehicle w.dbc entry fromSpell temp
  have heq : w.create v entry fromSpell temp = { (w.setVehicle v veh) with
      passengers := Function.update w.passengers v fun _ => none } := by
    simp only [World.create, hnew]
    rfl
  have hempty : ∀ s p, w.passengers v s ≠ some p := by
    intro s p hp
    obtain ⟨veh', hveh', -⟩ := h.linked.seat v s p hp
    rw [hnew] at hveh'
    cases hveh'
  have hpassengers : (w.create v entry fromSpell temp).passengers = w.passengers := by
    rw [heq]
    funext u s
    by_cases hu : u = v
    · subst hu
      cases hp : w.passengers u s with
      | none => simp
      | some p => exact absurd hp (hempty s p)
    · simp [hu]
  have hplayers : (w.create v entry fromSpell temp).players = w.players := by rw [heq]; rfl
  have hold : ∀ u, u ≠ v → (w.create v entry fromSpell temp).vehicles u = w.vehicles u := by
    intro u hu
    rw [heq]
    exact Function.update_of_ne hu ..
  have hself : (w.create v entry fromSpell temp).vehicles v = some veh := by
    rw [heq]
    exact Function.update_self ..
  refine ⟨⟨?_, ?_, ?_, ?_, ?_, ?_, ?_⟩, ?_⟩
  · rw [hpassengers, hplayers]
    exact h.linked.seated
  · rw [hpassengers, hplayers]
    exact h.linked.charm
  · rw [hpassengers, hplayers]
    exact h.linked.home
  · rw [hplayers]
    exact h.linked.away
  · rw [hpassengers]
    intro u s p hp
    have hu : u ≠ v := by
      rintro rfl
      exact hempty s p hp
    rw [hold u hu]
    exact h.linked.seat u s p hp
  · intro u veh' hveh'
    by_cases hu : u = v
    · subst hu
      rw [hself] at hveh'
      exact Option.some.inj hveh' ▸ height
    · rw [hold u hu] at hveh'
      exact h.linked.eight u veh' hveh'
  · rw [hpassengers]
    exact h.linked.front
  · intro u veh' hveh'
    unfold Roomy
    rw [hpassengers]
    by_cases hu : u = v
    · subst hu
      rw [hself] at hveh'
      obtain rfl := Option.some.inj hveh'
      refine ⟨hcount, hnone, ?_⟩
      intro hmax
      obtain ⟨s, hs⟩ := hseats.resolve_left hmax
      refine ⟨s, hs, ?_⟩
      cases hp : w.passengers u s with
      | none => rfl
      | some p => exact absurd hp (hempty s p)
    · rw [hold u hu] at hveh'
      exact h.roomy u veh' hveh'

theorem good_summon {entry : Nat} (h : Good w)
    (hok : w.vehicles v = none → (loadVehicle w.dbc entry true true).maxPassengers = 0 ∨
      BoardOk w v (loadVehicle w.dbc entry true true) p 0) :
    ∃ w', w.summon v entry p = some w' ∧ Good w' := by
  unfold summon
  cases hnew : w.vehicles v with
  | some veh => exact ⟨w, rfl, h⟩
  | none =>
    have hcreate : Good (w.create v entry true true) := by
      refine h.create hnew ?_
      rcases hok hnew with hmax | ⟨-, -, hseat, -⟩
      · exact Or.inl hmax
      · exact Or.inr ⟨0, hseat⟩
    have hself : (w.create v entry true true).vehicles v =
        some (loadVehicle w.dbc entry true true) := by
      simp [World.create, hnew, setVehicle]
    have hagain : initSeats w.dbc entry (loadVehicle w.dbc entry true true) =
        loadVehicle w.dbc entry true true := by
      have hentry : (loadVehicle w.dbc entry true true).entry = entry := by
        unfold loadVehicle initSeats
        cases w.dbc.seatID entry <;> rfl
      have htwice := initSeats_again w.dbc entry
        { entry := entry, vehicleSeats := fun _ => none, maxPassengers := 0, passengerCount := 0
          createdFromSpell := true, tempSpawn := true, safeDelete := false, inWorld := true }
      unfold loadVehicle at hentry ⊢
      rwa [hentry] at htwice
    have hset : (w.create v entry true true).setVehicle v
        (initSeats w.dbc entry (loadVehicle w.dbc entry true true)) =
          w.create v entry true true := by
      rw [hagain]
      unfold setVehicle
      rw [← hself, Function.update_eq_self]
    have hdbc : (w.create v entry true true).dbc = w.dbc := by
      simp [World.create, hnew, setVehicle]
    have hplayers : (w.create v entry true true).players = w.players := by
      simp [World.create, hnew, setVehicle]
    have hpassengers : ∀ s, (w.create v entry true true).passengers v s = none := by
      intro s
      simp [World.create, hnew]
    simp only [hset]
    refine addPassenger_spec hcreate hself ?_ ?_
    · intro _
      rw [hdbc]
      have hentry : (loadVehicle w.dbc entry true true).entry = entry := by
        unfold loadVehicle initSeats
        cases w.dbc.seatID entry <;> rfl
      rw [hentry, hagain]
    · intro i hi
      have hmem := List.mem_range.1 (List.mem_of_find?_eq_some hi)
      rcases hok hnew with hmax | hboard
      · omega
      · have hi0 : i = 0 := by
          obtain ⟨n, hn⟩ : ∃ n, (loadVehicle w.dbc entry true true).maxPassengers = n + 1 :=
            ⟨(loadVehicle w.dbc entry true true).maxPassengers - 1, by omega⟩
          unfold firstFree at hi
          rw [hn, List.range_succ_eq_map, List.find?_cons_of_pos (by simp [hpassengers])] at hi
          exact (Option.some.inj hi).symm
        obtain ⟨hwalks, hcharm, hseat, s, hs0, hs, -⟩ := hboard
        subst hi0
        refine ⟨by rw [hplayers]; exact hwalks, by rw [hplayers]; exact hcharm, hseat, s, hs0, hs,
          hpassengers s⟩

/-- A click: whoever passes the checks has no vehicle, so that he is not
among the passengers. -/
theorem good_spellClick (h : Good w)
    (hok : w.canClick p v = true → ∀ veh i, w.vehicles v = some veh → w.firstFree v veh = some i →
      BoardOk w v veh p i) :
    ∃ w', w.spellClick p v = some w' ∧ Good w' := by
  unfold spellClick
  split_ifs with hclick
  · cases hveh : w.vehicles v with
    | none => exact ⟨w, rfl, h⟩
    | some veh =>
      have hchecks := hclick
      simp only [canClick, hveh, Option.any_some, Bool.and_eq_true, decide_eq_true_iff] at hchecks
      obtain ⟨hwalks, ⟨-, hmax⟩, -⟩ := hchecks
      have hnot : w.hasPassenger v veh p = false := by
        unfold hasPassenger
        rw [List.any_eq_false]
        intro i _ hi
        obtain ⟨hu, -⟩ := h.linked.seated v i p (by simpa using hi) fun _ => by simp
        rw [hwalks] at hu
        cases hu
      simp only [hnot]
      exact addPassenger_spec h hveh (fun hzero => absurd hzero hmax)
        fun i hi => hok hclick veh i hveh hi
  · exact ⟨w, rfl, h⟩

theorem good_dismiss (h : Good w) : ∃ w', w.dismiss p = some w' ∧ Good w' := by
  unfold dismiss
  cases hv : (w.players p).currentVehicle with
  | none => exact ⟨w, rfl, h⟩
  | some v =>
    obtain ⟨w', heq, hlinked, hfrees, -⟩ := removePassenger_spec h.linked (h.linked.home p v hv).1
    exact ⟨w', heq, h.of_frees hlinked hfrees⟩

theorem good_leave (h : Good w) : ∃ w', w.leave p = some w' ∧ Good w' := by
  unfold leave
  cases hv : (w.players p).currentVehicle with
  | none => exact ⟨w, rfl, h⟩
  | some v =>
    obtain ⟨w', heq, hlinked, hfrees, hout⟩ :=
      removePassenger_spec h.linked (h.linked.home p v hv).1
    refine ⟨w', ?_, h.of_frees hlinked hfrees⟩
    have hsame : w'.setPlayer p { w'.players p with currentVehicle := none } = w' := by
      unfold setPlayer
      rw [← hout, Function.update_eq_self]
    simp only [heq, Option.map_some, hsame]

/-- Everybody is removed, one after the other. -/
theorem removeAll_spec (is : List Nat) (h : Good w) :
    ∃ w', is.foldlM (fun (w : World) i =>
        match w.passengers v i with
        | none => some w
        | some q => w.removePassenger v q) w = some w' ∧ Good w' := by
  induction is generalizing w with
  | nil => exact ⟨w, rfl, h⟩
  | cons i is ih =>
    rw [List.foldlM_cons]
    cases hq : w.passengers v i with
    | none => exact ih h
    | some q =>
      obtain ⟨w₁, heq, hlinked, hfrees, -⟩ := removePassenger_spec h.linked hq
      simp only [heq]
      exact ih (h.of_frees hlinked hfrees)

theorem good_setDeathState (h : Good w) (justDied : Bool) :
    ∃ w', w.setDeathState v justDied = some w' ∧ Good w' := by
  unfold setDeathState
  cases hveh : w.vehicles v with
  | none => exact ⟨w, rfl, h⟩
  | some veh =>
    obtain ⟨w₁, heq, hgood⟩ := @removeAll_spec w v (List.range veh.maxPassengers) h
    have hflag : KeepsSeats fun veh =>
        { veh with safeDelete := veh.safeDelete || (justDied && veh.createdFromSpell) } :=
      fun _ => ⟨rfl, rfl, rfl⟩
    exact ⟨_, congrArg (Option.map _) heq,
      hgood.of_frees (hgood.linked.modify hflag) (Frees.modify hflag w₁ v)⟩

/-- The charm of a player who is not in control of a vehicle is free. -/
theorem Good.setCharm (h : Good w) (hp : ∀ v, w.passengers v 0 ≠ some p) (c : Option Charm) :
    Good (w.setPlayer p { w.players p with currentCharm := c }) := by
  have hsame : ∀ q,
      ((w.setPlayer p { w.players p with currentCharm := c }).players q).currentVehicle =
        (w.players q).currentVehicle ∧
      ((w.setPlayer p { w.players p with currentCharm := c }).players q).inVehicleSeatId =
        (w.players q).inVehicleSeatId := by
    intro q
    by_cases hq : q = p
    · subst hq
      simp
    · rw [setPlayer_other _ hq]
      exact ⟨rfl, rfl⟩
  refine ⟨⟨?_, ?_, ?_, ?_, h.linked.seat, h.linked.eight, h.linked.front⟩, h.roomy⟩
  · intro v s q hq hhole
    rw [(hsame q).1, (hsame q).2]
    exact h.linked.seated v s q hq hhole
  · intro v q hq hhole
    have hqp : q ≠ p := by
      rintro rfl
      exact hp v hq
    rw [setPlayer_other _ hqp]
    exact h.linked.charm v q hq hhole
  · intro q v hv
    rw [(hsame q).1] at hv
    rw [(hsame q).2]
    exact h.linked.home q v hv
  · intro q hq
    rw [(hsame q).1] at hq
    rw [(hsame q).2]
    exact h.linked.away q hq

/-- A player forgets the vehicle that is his charm. -/
theorem good_onRemoveInRangeObject (h : Good w) :
    ∃ w', w.onRemoveInRangeObject v p = some w' ∧ Good w' := by
  unfold onRemoveInRangeObject
  split_ifs with hcharm hcurrent
  · obtain ⟨w₁, heq, hlinked, hfrees, hout⟩ :=
      removePassenger_spec h.linked (h.linked.home p v hcurrent).1
    have hgood := h.of_frees hlinked hfrees
    simp only [heq, Option.map_some]
    refine ⟨_, rfl, hgood.setCharm ?_ none⟩
    intro u hu
    obtain ⟨hp, -⟩ := hlinked.seated u 0 p hu fun _ => by simp
    rw [hout] at hp
    cases hp
  · refine ⟨_, rfl, h.setCharm ?_ none⟩
    intro u hu
    have hcharm' := h.linked.charm u p hu (by simp)
    rw [hcharm] at hcharm'
    cases hcharm'
    exact hcurrent (h.linked.seated v 0 p hu fun _ => by simp).1
  · exact ⟨w, rfl, h⟩

theorem good_removeFromWorld (h : Good w) (inRange : List Nat) :
    ∃ w', w.removeFromWorld v inRange = some w' ∧ Good w' := by
  have hall : ∃ w', inRange.foldlM (fun (w : World) p => w.onRemoveInRangeObject v p) w = some w' ∧
      Good w' := by
    induction inRange generalizing w with
    | nil => exact ⟨w, rfl, h⟩
    | cons p rest ih =>
      obtain ⟨w₁, heq, hgood⟩ := @good_onRemoveInRangeObject w v p h
      rw [List.foldlM_cons, heq]
      exact ih hgood
  obtain ⟨w₁, heq, hgood⟩ := hall
  unfold removeFromWorld
  simp only [heq, Option.map_some]
  have hflag : KeepsSeats fun veh => { veh with inWorld := false } := fun _ => ⟨rfl, rfl, rfl⟩
  exact ⟨_, rfl, hgood.of_frees (hgood.linked.modify hflag) (Frees.modify hflag w₁ v)⟩

/-! ## Runs -/

/-- The condition on a call. -/
def Keeps (w : World) : Call → Prop
  | .create v entry fromSpell temp => w.vehicles v = none →
      (loadVehicle w.dbc entry fromSpell temp).maxPassengers = 0 ∨
        ∃ s, (loadVehicle w.dbc entry fromSpell temp).vehicleSeats s ≠ none
  | .summon v entry rider => w.vehicles v = none →
      (loadVehicle w.dbc entry true true).maxPassengers = 0 ∨
        BoardOk w v (loadVehicle w.dbc entry true true) rider 0
  | .spellClick p v => w.canClick p v = true → ∀ veh i, w.vehicles v = some veh →
      w.firstFree v veh = some i → BoardOk w v veh p i
  | .setCharm p _ => ∀ v, (w.players p).currentCharm ≠ some (.vehicle v)
  | _ => True

theorem good_step (w : World) (c : Call) (h : Good w) (hkeeps : Keeps w c) :
    ∃ w', step w c = some w' ∧ Good w' := by
  cases c with
  | create v entry fromSpell temp =>
    refine ⟨_, rfl, ?_⟩
    cases hveh : w.vehicles v with
    | none => exact h.create hveh (hkeeps hveh)
    | some veh =>
      have hsame : w.create v entry fromSpell temp = w := by simp only [World.create, hveh]
      rw [hsame]
      exact h
  | summon v entry rider => exact good_summon h hkeeps
  | spellClick p v => exact good_spellClick h hkeeps
  | dismiss p => exact good_dismiss h
  | leave p => exact good_leave h
  | setDeathState v justDied => exact good_setDeathState h justDied
  | removeFromWorld v inRange => exact good_removeFromWorld h inRange
  | setCharm p charmed =>
    refine ⟨_, rfl, h.setCharm ?_ _⟩
    intro v hp
    exact hkeeps v (h.linked.charm v p hp (by simp))

/-- No vehicles, and everybody on foot. -/
def start (dbc : Dbc) : World := ⟨dbc, fun _ => none, fun _ _ => none, fun _ => ⟨none, 255, none⟩⟩

theorem good_start (dbc : Dbc) : Good (start dbc) := by
  refine ⟨⟨?_, ?_, ?_, ?_, ?_, ?_, ?_⟩, ?_⟩
  · intro v s p hp
    cases hp
  · intro v p hp
    cases hp
  · intro p v hv
    cases hv
  · intro p _
    exact Nat.le_of_ble_eq_true rfl
  · intro v s p hp
    cases hp
  · intro v veh hveh
    cases hveh
  · intro v s p hp
    cases hp
  · intro v veh hveh
    cases hveh

/-- For every layout of seats, in every run of calls that meet the
condition: the two sides agree, passengers sit on seats that exist, the
full vehicles are reported full, and no further call that meets it reads
a seat that is not there. -/
theorem seats_run (dbc : Dbc) (w : World) (calls : List Call)
    (hrun : Run (Guarded Keeps (PartialStep step)) (start dbc) calls w) :
    Law w ∧ ∀ c, Keeps w c → (step w c).isSome = true := by
  have hgood : Good w := by
    refine hrun.invariant Good ?_ (good_start dbc)
    rintro w₁ c w₂ hw₁ ⟨hkeeps, hstep⟩
    obtain ⟨w', heq, hw'⟩ := good_step w₁ c hw₁ hkeeps
    have hsame : w' = w₂ := Option.some.inj (heq.symm.trans hstep)
    exact hsame ▸ hw'
  refine ⟨hgood.law, ?_⟩
  intro c hkeeps
  obtain ⟨w', heq, -⟩ := good_step w c hgood hkeeps
  rw [heq]
  rfl

/-- Vehicle 1 has its seats in front, vehicle 2 in slots 0 and 2. -/
def tables : Dbc where
  seatID entry :=
    if entry = 1 then some fun i => if i < 2 then 10 + i else 0
    else some fun i => if i = 0 ∨ i = 2 then 10 + i else 0
  seat id := some ⟨id⟩

/-- The world after calls that are all defined. -/
def after (calls : List Call) : World := (calls.foldlM step (start tables)).getD (start tables)

/-- Player 51 takes a seat, and leaves it. -/
theorem seats_run_ride :
    Law (after [.create 7 1 false false, .spellClick 51 7, .dismiss 51]) := by
  refine (seats_run tables _ [.create 7 1 false false, .spellClick 51 7, .dismiss 51] ?_).1
  refine .cons ⟨?_, rfl⟩ (.cons ⟨?_, rfl⟩ (.cons ⟨trivial, rfl⟩ (.nil _)))
  · intro _
    exact Or.inr ⟨0, by decide +kernel⟩
  · intro _ veh i hveh hi
    have hveh' : loadVehicle tables 1 false false = veh := Option.some.inj hveh
    subst hveh'
    have hi' : some 0 = some i := Eq.trans (by decide +kernel) hi
    cases hi'
    exact ⟨by decide +kernel, by decide +kernel, by decide +kernel, 1, by decide +kernel,
      by decide +kernel, by decide +kernel⟩

/-- A full vehicle is not reported full; the second player is put on a
seat that is not there; a player with a charm is seated and not told so;
and the caster who sits in one vehicle is put into another. -/
theorem not_seats_run :
    ¬ Law (after [.create 7 1 false false, .spellClick 51 7, .spellClick 52 7]) ∧
      step (after [.create 7 2 false false, .spellClick 51 7]) (.spellClick 52 7) = none ∧
      ¬ Law (after [.create 7 1 false false, .setCharm 51 true, .spellClick 51 7]) ∧
      ¬ Law (after [.create 7 1 false false, .spellClick 51 7, .summon 8 1 51]) := by
  refine ⟨fun h => ?_, ?_, fun h => ?_, fun h => ?_⟩
  · have hveh : (after [.create 7 1 false false, .spellClick 51 7, .spellClick 52 7]).vehicles 7 =
        some (loadVehicle tables 1 false false) := rfl
    have hfull := (h.full 7 _ hveh).2 ?_
    · exact absurd hfull (by decide +kernel)
    · intro s hs
      have hlt : s < 2 := by
        by_contra hge
        refine hs ?_
        simp only [loadVehicle, initSeats, tables, if_true, hge, if_false]
        simp
      interval_cases s <;> decide +kernel
  · rfl
  · have hlink := (h.linked 7 0 51).1 (by decide +kernel)
    exact absurd hlink.1 (by decide +kernel)
  · have hlink := (h.linked 8 0 51).1 (by decide +kernel)
    exact absurd hlink.1 (by decide +kernel)

/-- And nobody rides without a driver, who has the vehicle as his charm. -/
theorem driver_run {dbc : Dbc} {w : World} {calls : List Call}
    (hrun : Run (Guarded Keeps (PartialStep step)) (start dbc) calls w) {v s p : Nat}
    (hp : w.passengers v s = some p) : ∃ driver, w.passengers v 0 = some driver ∧
      (w.players driver).currentCharm = some (.vehicle v) := by
  have hgood : Good w := by
    refine hrun.invariant Good ?_ (good_start dbc)
    rintro w₁ c w₂ hw₁ ⟨hkeeps, hstep⟩
    obtain ⟨w', heq, hw'⟩ := good_step w₁ c hw₁ hkeeps
    exact Option.some.inj (heq.symm.trans hstep) ▸ hw'
  obtain ⟨driver, hdriver⟩ := Option.ne_none_iff_exists'.1 (hgood.linked.front v s p hp)
  exact ⟨driver, hdriver, hgood.linked.charm v driver hdriver (by simp)⟩

theorem driver_run_summon : ∃ driver,
    (after [.summon 7 1 51]).passengers 7 0 = some driver := by
  have hrun : Run (Guarded Keeps (PartialStep step)) (start tables) [.summon 7 1 51]
      (after [.summon 7 1 51]) := by
    refine .cons ⟨fun _ => Or.inr ⟨by decide +kernel, by decide +kernel, by decide +kernel, 1,
      by decide +kernel, by decide +kernel, by decide +kernel⟩, rfl⟩ (.nil _)
  obtain ⟨driver, hdriver, -⟩ := driver_run hrun (v := 7) (s := 0) (p := 51) (by decide +kernel)
  exact ⟨driver, hdriver⟩

end HearthStone.VehicleSeats
