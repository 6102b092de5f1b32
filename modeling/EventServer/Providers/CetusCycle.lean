import EventServer.Providers.WorldState

/-! # The cycle of Cetus

The end of the bounties is cut to the minute before it is compared with the time of day, so the last
minute of a cycle that does not end on a minute is refused, although the expiry is still to come
(`last_minute_refused`). In the rest of the cycle the night is found from 3000 seconds before the
cut end on, and the interval that is returned covers the time of day (`cetus_cycle`). -/

namespace EventServer.Providers.WorldState

open EventServer.Core EventServer.Python EventServer.Providers.Warframe

/-! ### Whole minutes -/

theorem wholeMinute_le (t : Time) : wholeMinute t ≤ t := by
  have hrest : 0 ≤ t % minutes 1 := Int.emod_nonneg t (by decide)
  exact sub_le_self t hrest

/-! ### A payload that is read -/

/-- The raw data of the phase at `observedAt` when the bounties end at `bountyEnd`. -/
def phaseOf (observedAt bountyEnd : Time) : CetusNight :=
  let isNight := decide (bountyEnd - observedAt ≤ seconds cetusNightSeconds)
  { identity := "cetus:" ++ toString (intTimestamp bountyEnd) ++ ":" ++
      (if isNight then "night" else "day")
    isNight := isNight
    observedAt := observedAt
    effectiveAt := if isNight then bountyEnd - seconds cetusNightSeconds else observedAt
    expiresAt := if isNight then bountyEnd else bountyEnd - seconds cetusNightSeconds }

theorem cetusPhase_ok_iff {observedAt bountyEnd : Time} {night : CetusNight} :
    cetusPhase observedAt bountyEnd = .ok night ↔
      observedAt < bountyEnd ∧ InRange (bountyEnd - seconds cetusNightSeconds) ∧
        night = phaseOf observedAt bountyEnd := by
  unfold cetusPhase checked
  by_cases hend : bountyEnd - observedAt ≤ 0
  · rw [if_pos hend]
    have hpast : ¬observedAt < bountyEnd := fun h => absurd (sub_pos.2 h) (not_lt.2 hend)
    exact ⟨nofun, fun h => absurd h.1 hpast⟩
  · rw [if_neg hend]
    have hfuture : observedAt < bountyEnd := sub_pos.1 (not_le.1 hend)
    by_cases hrange : InRange (bountyEnd - seconds cetusNightSeconds)
    · rw [if_pos hrange]
      constructor
      · intro h
        have hnight : phaseOf observedAt bountyEnd = night := by
          simpa [phaseOf, bind, Except.bind] using h
        exact ⟨hfuture, hrange, hnight.symm⟩
      · rintro ⟨-, -, rfl⟩
        simp [phaseOf, bind, Except.bind]
    · rw [if_neg hrange]
      exact ⟨nofun, fun h => absurd h.2.1 hrange⟩

theorem cetusNight_ok_iff {lib : Library} {payload mission : JsonObject} {v : ℤ} {bountyEnd : Time}
    {night : CetusNight} (htime : epochSeconds (payload.lookup "Time") = .ok v)
    (hmission : cetusMission payload = .ok mission)
    (hexpiry : bsonDate lib (mission.lookup "Expiry") = .ok bountyEnd) :
    cetusNight lib payload = .ok night ↔
      InRange (seconds v) ∧ seconds v < wholeMinute bountyEnd ∧
        InRange (wholeMinute bountyEnd - seconds cetusNightSeconds) ∧
        night = phaseOf (seconds v) (wholeMinute bountyEnd) := by
  unfold cetusNight fromtimestamp
  by_cases hrange : InRange (seconds v)
  · simp only [htime, hmission, hexpiry, bind, Except.bind, if_pos hrange]
    rw [cetusPhase_ok_iff]
    exact ⟨fun h => ⟨hrange, h⟩, fun h => h.2⟩
  · simp only [htime, bind, Except.bind, if_neg hrange]
    exact ⟨nofun, fun h => absurd h.1 hrange⟩

/-! ### The interval -/

/-- What is promised of the raw data at the time of day `v` for a mission that expires at
`expiry`. -/
structure Covers (night : CetusNight) (v : ℤ) (expiry : Time) : Prop where
  observed : night.observedAt = seconds v
  begun : night.effectiveAt ≤ night.observedAt
  running : night.observedAt < night.expiresAt
  within : night.expiresAt ≤ expiry
  isNight_iff : night.isNight = true ↔ wholeMinute expiry - seconds v ≤ seconds 3000

theorem phaseOf_covers {v : ℤ} {expiry : Time} (h : seconds v < wholeMinute expiry) :
    Covers (phaseOf (seconds v) (wholeMinute expiry)) v expiry := by
  have hcut : wholeMinute expiry ≤ expiry := wholeMinute_le expiry
  by_cases hnight : wholeMinute expiry - seconds v ≤ seconds cetusNightSeconds
  · have hbegun : wholeMinute expiry - seconds cetusNightSeconds ≤ seconds v := sub_le_comm.1 hnight
    refine ⟨rfl, ?_, ?_, ?_, ?_⟩
    · simpa [phaseOf, hnight] using hbegun
    · simpa [phaseOf, hnight] using h
    · simpa [phaseOf, hnight] using hcut
    · simp [phaseOf, cetusNightSeconds]
  · have hday : seconds v < wholeMinute expiry - seconds cetusNightSeconds :=
      lt_sub_comm.1 (not_le.1 hnight)
    have hpos : (0 : ℤ) ≤ seconds cetusNightSeconds := by decide
    refine ⟨rfl, ?_, ?_, ?_, ?_⟩
    · simp [phaseOf, hnight]
    · simpa [phaseOf, hnight] using hday
    · have hend : wholeMinute expiry - seconds cetusNightSeconds ≤ expiry :=
        (sub_le_self _ hpos).trans hcut
      simpa [phaseOf, hnight] using hend
    · simp [phaseOf, cetusNightSeconds]

/-! ### The whole cycle -/

theorem phaseOf_identity {t t' bountyEnd : Time}
    (h : (phaseOf t bountyEnd).isNight = (phaseOf t' bountyEnd).isNight) :
    (phaseOf t bountyEnd).identity = (phaseOf t' bountyEnd).identity := by
  have hphase : decide (bountyEnd - t ≤ seconds cetusNightSeconds) =
      decide (bountyEnd - t' ≤ seconds cetusNightSeconds) := h
  unfold phaseOf
  simp only [hphase]

theorem phaseOf_night {t t' bountyEnd : Time} (hle : t ≤ t')
    (h : (phaseOf t bountyEnd).isNight = true) : (phaseOf t' bountyEnd).isNight = true := by
  have hnight : bountyEnd - t ≤ seconds cetusNightSeconds := of_decide_eq_true h
  exact decide_eq_true ((sub_le_sub_left hle bountyEnd).trans hnight)

theorem seconds_le_seconds {v v' : ℤ} (h : v ≤ v') : seconds v ≤ seconds v' :=
  mul_le_mul_of_nonneg_right h (by decide)

/-- **A payload whose Cetus mission expires after its time is turned into an interval that covers
the time, exactly when the minute of the expiry is still to come and the dates are dates; within a
mission the identity follows the phase and the night is not left.** -/
theorem cetus_cycle (lib : Library) {payload mission : JsonObject} {v : ℤ} {expiry : Time}
    (htime : epochSeconds (payload.lookup "Time") = .ok v)
    (hmission : cetusMission payload = .ok mission)
    (hexpiry : bsonDate lib (mission.lookup "Expiry") = .ok expiry) (_hlater : seconds v < expiry) :
    ((∃ night, cetusNight lib payload = .ok night ∧ Covers night v expiry) ↔
        InRange (seconds v) ∧ seconds v < wholeMinute expiry ∧
          InRange (wholeMinute expiry - seconds 3000)) ∧
      ∀ payload' v' night night', epochSeconds (payload'.lookup "Time") = .ok v' →
        cetusMission payload' = .ok mission → v < v' →
        cetusNight lib payload = .ok night → cetusNight lib payload' = .ok night' →
          (night.isNight = night'.isNight → night.identity = night'.identity) ∧
            (night.isNight = true → night'.isNight = true) := by
  constructor
  · constructor
    · rintro ⟨night, hok, -⟩
      obtain ⟨hrange, hbefore, hstart, -⟩ := (cetusNight_ok_iff htime hmission hexpiry).1 hok
      exact ⟨hrange, hbefore, hstart⟩
    · rintro ⟨hrange, hbefore, hstart⟩
      exact ⟨phaseOf (seconds v) (wholeMinute expiry),
        (cetusNight_ok_iff htime hmission hexpiry).2 ⟨hrange, hbefore, hstart, rfl⟩,
        phaseOf_covers hbefore⟩
  · intro payload' v' night night' htime' hmission' hlt hok hok'
    obtain ⟨-, -, -, rfl⟩ := (cetusNight_ok_iff htime hmission hexpiry).1 hok
    obtain ⟨-, -, -, rfl⟩ := (cetusNight_ok_iff htime' hmission' hexpiry).1 hok'
    exact ⟨phaseOf_identity, phaseOf_night (seconds_le_seconds hlt.le)⟩

/-! ### Samples -/

/-- The number that a list of decimal digits spells. -/
def sampleDigits (s : List Char) : Option ℤ :=
  if !s.isEmpty && s.all Char.isDigit then
    some (s.foldl (fun n c => n * 10 + (c.toNat - '0'.toNat : ℕ)) 0)
  else none

/-- The library of the samples reads integers that are written in decimal digits only. -/
def sampleLibrary : Library where
  intOfStr s := sampleDigits s.toList
  fromMillis n := if InRange (n * 1000) then .ok (n * 1000) else .error .valueError
  timestampError _ := .valueError
  fromMillis_range := by
    intro n t h
    by_cases hrange : InRange (n * 1000)
    · rw [if_pos hrange] at h
      cases h
      exact hrange
    · rw [if_neg hrange] at h
      cases h

/-- The Cetus mission of the sample, which expires in the middle of a minute. -/
def sampleMission : JsonObject :=
  [("Activation", .obj [("$date", .obj [("$numberLong", .str "1789391959903")])]),
    ("Expiry", .obj [("$date", .obj [("$numberLong", .str "1789400958777")])]),
    ("Seed", .int 49224), ("Tag", .str "CetusSyndicate")]

/-- A payload with that mission and a time. -/
def samplePayload (time : ℤ) : JsonObject :=
  [("Time", .int time), ("SyndicateMissions", .arr [.obj sampleMission]), ("Goals", .arr [])]

theorem samplePayload_mission (time : ℤ) :
    cetusMission (samplePayload time) = .ok sampleMission := rfl

theorem sampleMission_expiry :
    bsonDate sampleLibrary (sampleMission.lookup "Expiry") = .ok 1789400958777000 := by
  have hdigits : sampleDigits "1789400958777".toList = some 1789400958777 := by decide
  have hrange : InRange ((1789400958777 : ℤ) * 1000) := by decide
  have hmillis : sampleLibrary.fromMillis 1789400958777 = .ok (1789400958777 * 1000) := by
    simp only [sampleLibrary, if_pos hrange]
  have hread : numberLong sampleLibrary (sampleMission.lookup "Expiry") =
      some 1789400958777 := hdigits
  unfold bsonDate
  simp only [hread, hmillis]
  rfl

/-- In the afternoon the sample is read. -/
theorem cetus_cycle_sample :
    ∃ night, cetusNight sampleLibrary (samplePayload 1789396395) = .ok night ∧
      Covers night 1789396395 1789400958777000 :=
  have htime : epochSeconds ((samplePayload 1789396395).lookup "Time") = .ok 1789396395 := rfl
  (cetus_cycle sampleLibrary htime (samplePayload_mission _) sampleMission_expiry (by decide)).1.2
    (by decide)

/-- **Eight seconds before the expiry, in the minute of it, the payload is refused.** -/
theorem last_minute_refused :
    epochSeconds ((samplePayload 1789400950).lookup "Time") = .ok 1789400950 ∧
      cetusMission (samplePayload 1789400950) = .ok sampleMission ∧
      bsonDate sampleLibrary (sampleMission.lookup "Expiry") = .ok 1789400958777000 ∧
      seconds 1789400950 < 1789400958777000 ∧
      cetusNight sampleLibrary (samplePayload 1789400950) =
        .error (.worldStateSchemaError "Cetus bounty expiry is not in the future") := by
  refine ⟨rfl, rfl, sampleMission_expiry, by decide, ?_⟩
  have hrange : InRange (seconds 1789400950) := by decide
  unfold cetusNight fromtimestamp
  simp only [show epochSeconds ((samplePayload 1789400950).lookup "Time") = .ok 1789400950 from rfl,
    samplePayload_mission, sampleMission_expiry, bind, Except.bind, if_pos hrange]
  rfl

end EventServer.Providers.WorldState
