import HexPulse.Intake.Record
import HexPulse.Intake.Scalars
import HexPulse.Settings

/-!
# HexPulse — Settings — Intake

Settings from data.  Every field may be left out; the standard one stands in for it.
-/

namespace HexPulse

variable {α : Type} [Scalar α]

open Intake

def GridSettings.names : List String :=
  ["radius", "hex_size", "node_health", "terrain_health"]

def GridSettings.read : Data α → Intake (GridSettings α) :=
  record GridSettings.names fun fields => do
    let s : GridSettings α := .standard
    let radius ← optional fields "radius" s.radius (integerFrom 1)
    let hexSize ← optional fields "hex_size" s.hexSize positive
    let nodeHealth ← optional fields "node_health" s.nodeHealth positive
    let terrainHealth ← optional fields "terrain_health" s.terrainHealth positive
    return ⟨radius, hexSize, nodeHealth, terrainHealth⟩

def HeartSettings.names : List String :=
  ["initial_health", "initial_period", "period_base", "heal_interval", "heal_amount",
   "contact_damage"]

def HeartSettings.read : Data α → Intake (HeartSettings α) :=
  record HeartSettings.names fun fields => do
    let s : HeartSettings α := .standard
    let initialHealth ← optional fields "initial_health" s.initialHealth positive
    let initialPeriod ← optional fields "initial_period" s.initialPeriod positive
    let periodBase ← optional fields "period_base" s.periodBase positive
    let healInterval ← optional fields "heal_interval" s.healInterval positive
    let healAmount ← optional fields "heal_amount" s.healAmount nonNegative
    let contactDamage ← optional fields "contact_damage" s.contactDamage nonNegative
    return ⟨initialHealth, initialPeriod, periodBase, healInterval, healAmount, contactDamage⟩

def WeaponSettings.names : List String :=
  ["lazor_damage", "shock_damage", "shock_link_seconds", "beam_speed", "beam_arrival_radius",
   "rocket_speed", "rocket_damage", "rocket_radius", "rocket_max_distance", "orbital_delay",
   "orbital_radius", "orbital_damage", "plasma_max_threshold", "plasma_radius",
   "plasma_damage_interval", "plasma_damage_scale", "target_radius"]

def WeaponSettings.read : Data α → Intake (WeaponSettings α) :=
  record WeaponSettings.names fun fields => do
    let s : WeaponSettings α := .standard
    let lazorDamage ← optional fields "lazor_damage" s.lazorDamage number
    let shockDamage ← optional fields "shock_damage" s.shockDamage number
    let shockLinkSeconds ← optional fields "shock_link_seconds" s.shockLinkSeconds number
    let beamSpeed ← optional fields "beam_speed" s.beamSpeed number
    let beamArrivalRadius ← optional fields "beam_arrival_radius" s.beamArrivalRadius number
    let rocketSpeed ← optional fields "rocket_speed" s.rocketSpeed number
    let rocketDamage ← optional fields "rocket_damage" s.rocketDamage number
    let rocketRadius ← optional fields "rocket_radius" s.rocketRadius number
    let rocketMaxDistance ← optional fields "rocket_max_distance" s.rocketMaxDistance number
    let orbitalDelay ← optional fields "orbital_delay" s.orbitalDelay number
    let orbitalRadius ← optional fields "orbital_radius" s.orbitalRadius number
    let orbitalDamage ← optional fields "orbital_damage" s.orbitalDamage number
    let plasmaMaxThreshold ← optional fields "plasma_max_threshold" s.plasmaMaxThreshold number
    let plasmaRadius ← optional fields "plasma_radius" s.plasmaRadius number
    let plasmaDamageInterval ←
      optional fields "plasma_damage_interval" s.plasmaDamageInterval number
    let plasmaDamageScale ← optional fields "plasma_damage_scale" s.plasmaDamageScale number
    let targetRadius ← optional fields "target_radius" s.targetRadius number
    return {
      lazorDamage, shockDamage, shockLinkSeconds, beamSpeed, beamArrivalRadius, rocketSpeed,
      rocketDamage, rocketRadius, rocketMaxDistance, orbitalDelay, orbitalRadius, orbitalDamage,
      plasmaMaxThreshold, plasmaRadius, plasmaDamageInterval, plasmaDamageScale, targetRadius }

def TargetingSettings.names : List String :=
  ["closest_range", "nearby_default_range", "nearby_max_range"]

def TargetingSettings.read : Data α → Intake (TargetingSettings α) :=
  record TargetingSettings.names fun fields => do
    let s : TargetingSettings α := .standard
    let closestRange ← optional fields "closest_range" s.closestRange (integerFrom 0)
    let nearbyDefaultRange ← optional fields "nearby_default_range" s.nearbyDefaultRange nonNegative
    let nearbyMaxRange ← optional fields "nearby_max_range" s.nearbyMaxRange nonNegative
    return ⟨closestRange, nearbyDefaultRange, nearbyMaxRange⟩

def SpawnSettings.names : List String :=
  ["enabled", "spawn_chance", "spawn_ring", "target_health", "target_speed"]

def SpawnSettings.read : Data α → Intake (SpawnSettings α) :=
  record SpawnSettings.names fun fields => do
    let s : SpawnSettings α := .standard
    let enabled ← optional fields "enabled" s.enabled bool
    let spawnChance ← optional fields "spawn_chance" s.spawnChance fraction
    let spawnRing ← optional fields "spawn_ring" s.spawnRing (integerFrom 1)
    let targetHealth ← optional fields "target_health" s.targetHealth positive
    let targetSpeed ← optional fields "target_speed" s.targetSpeed nonNegative
    return ⟨enabled, spawnChance, spawnRing, targetHealth, targetSpeed⟩

namespace Settings

/-- The sections, and the names of their fields. -/
def sectionNames : List (String × List String) :=
  [("grid", GridSettings.names), ("heart", HeartSettings.names), ("weapons", WeaponSettings.names),
   ("targeting", TargetingSettings.names), ("spawn", SpawnSettings.names)]

/-- The names of the fields: one number and the sections. -/
def fieldNames : List String := "seed" :: sectionNames.map (·.1)

/-- Settings from data. -/
def readData : Data α → Intake (Settings α) :=
  record fieldNames fun fields => do
    let s : Settings α := .standard
    let seed ← optional fields "seed" s.seed integer
    let grid ← optionalWith fields "grid" s.grid GridSettings.read
    let heart ← optionalWith fields "heart" s.heart HeartSettings.read
    let weapons ← optionalWith fields "weapons" s.weapons WeaponSettings.read
    let targeting ← optionalWith fields "targeting" s.targeting TargetingSettings.read
    let spawn ← optionalWith fields "spawn" s.spawn SpawnSettings.read
    return ⟨seed, grid, heart, weapons, targeting, spawn⟩

end Settings

end HexPulse
