import RobotBridge.Payload.Lidar
import RobotBridge.Payload.Listing
import RobotBridge.Payload.Motion
import RobotBridge.Payload.SlamReset
import RobotBridge.Proofs.Json.Restore
import RobotBridge.Proofs.Numeric.Conversion

/-! Payloads made into documents and read back. All comes back as it was, floats bit for bit, as long as
the floats are finite; one that is not becomes null, and then nothing is read back. -/
namespace RobotBridge
open Json
open Numeric (Single)

/-! ### Documents of forms -/

namespace Form

theorem toJsonItems_eq (items : List Form) : toJsonItems items = items.map toJson := by
  induction items with
  | nil => rfl
  | cons item rest ih => rw [toJsonItems, ih, List.map_cons]

theorem toJsonMembers_eq (members : List (String × Form)) :
    toJsonMembers members = members.map fun m => (m.1, m.2.toJson) := by
  induction members with
  | nil => rfl
  | cons m rest ih => rw [toJsonMembers, ih, List.map_cons]

/-- What the document of a record has under a name. -/
theorem lookup_toJsonMembers (members : List (String × Form)) (name : String) :
    (gather (toJsonMembers members)).lookup name = (members.reverse.lookup name).map toJson := by
  rw [lookup_gather, toJsonMembers_eq, ← List.map_reverse]
  induction members.reverse with
  | nil => rfl
  | cons m rest ih =>
    rw [List.map_cons, lookup_member, ih, List.lookup_cons]
    by_cases h : name = m.1
    · simp [h]
    · rw [if_neg h, beq_eq_false_iff_ne.mpr h]

section Restores

variable {α : Type} {a : α} {P : Prop} {d : Decoder α} {members : List (String × Form)} {name : String}

theorem restores_single (x : Single) : Decoder.single.Restores (single x).toJson x x.isFinite := by
  intro r
  rw [toJson]
  by_cases hx : x.isFinite
  · rw [if_pos hx, Decoder.single, Numeric.Binary.convert_convert hx]
    simp [hx, eq_comm]
  · rw [if_neg hx]
    simp [Decoder.single, hx]

theorem restores_time (n : Int64) : Decoder.int64.Restores (time n).toJson n True := Decoder.restores_int64 n

theorem restores_word (n : UInt64) : Decoder.size.Restores (word n).toJson n True := Decoder.restores_size n

theorem time_ne_null (n : Int64) : (time n).toJson ≠ .null := Json.noConfusion

theorem word_ne_null (n : UInt64) : (word n).toJson ≠ .null := Json.noConfusion

theorem restores_list {form : α → Form} {P : α → Prop} (h : ∀ a, d.Restores (form a).toJson a (P a))
    (items : List α) : (Decoder.list d).Restores (list (items.map form)).toJson items (∀ a ∈ items, P a) := by
  rw [toJson, toJsonItems_eq, List.map_map]
  exact Decoder.restores_list h

theorem restores_record {type : String} {x : Fields α} (hfaultless : x.Faultless)
    (hx : x.Restores (gather (toJsonMembers members)) a P) :
    (Decoder.record type x).Restores (record members).toJson a P := Decoder.restores_record hfaultless hx

theorem restores_required {f : Form} (hfound : members.reverse.lookup name = some f)
    (h : d.Restores f.toJson a P) : (Fields.required name d).Restores (gather (toJsonMembers members)) a P :=
  Fields.restores_required (by rw [lookup_toJsonMembers, hfound, Option.map_some]) h

theorem restores_defaulting {f : Form} {absent : α} (hfound : members.reverse.lookup name = some f)
    (h : d.Restores f.toJson a P) :
    (Fields.defaulting name absent d).Restores (gather (toJsonMembers members)) a P :=
  Fields.restores_defaulting (by rw [lookup_toJsonMembers, hfound, Option.map_some]) h

theorem restores_optional {value : Option α} {form : α → Form}
    (hfound : members.reverse.lookup name = value.map form) (h : ∀ a, d.Restores (form a).toJson a True)
    (hnull : ∀ a, (form a).toJson ≠ .null) :
    (Fields.optional name d).Restores (gather (toJsonMembers members)) value True :=
  Fields.restores_optional (by rw [lookup_toJsonMembers, hfound, Option.map_map]; rfl) h hnull

/-- A record of three floats that may carry a time. -/
theorem restores_timed {type nx ny nz : String} {mk : Option Int64 → Single → Single → Single → α}
    {utime : Option Int64} {x y z : Single} (hnames : ["utime", nx, ny, nz].Nodup) :
    (Decoder.record type (mk <$> .optional "utime" .int64 <*> .required nx .single <*> .required ny .single
        <*> .required nz .single)).Restores
      (record (optionalMember "utime" (utime.map .time) ++ [(nx, single x), (ny, single y), (nz, single z)])).toJson
      (mk utime x y z) (x.isFinite ∧ y.isFinite ∧ z.isFinite) := by
  simp only [List.nodup_cons, List.mem_cons, List.not_mem_nil, not_or, or_false,
    ← beq_eq_false_iff_ne] at hnames
  obtain ⟨⟨htx, hty, htz⟩, ⟨hxy, hxz⟩, hyz, -⟩ := hnames
  refine (restores_record ?faultless
    ((((restores_optional ?utime restores_time time_ne_null).map.seq
      (restores_required ?x (restores_single x))).seq
      (restores_required ?y (restores_single y))).seq
      (restores_required ?z (restores_single z)))).congr ?finite
  case faultless =>
    exact ((Fields.faultless_defaulting.map.seq Fields.faultless_required).seq Fields.faultless_required).seq
      Fields.faultless_required
  case finite => simp only [true_and, and_assoc]
  all_goals cases utime <;> simp [optionalMember, List.lookup_cons, *]

end Restores

end Form

/-! ### Motion -/

def Pose.IsFinite (p : Pose) : Prop := p.x.isFinite ∧ p.y.isFinite ∧ p.theta.isFinite

theorem Pose.restores (p : Pose) : Pose.ofJson.Restores p.form.toJson p p.IsFinite := Form.restores_timed (by decide)

def Twist.IsFinite (t : Twist) : Prop := t.vx.isFinite ∧ t.vy.isFinite ∧ t.wz.isFinite

theorem Twist.restores (t : Twist) : Twist.ofJson.Restores t.form.toJson t t.IsFinite := Form.restores_timed (by decide)

namespace Path

def IsFinite (p : Path) : Prop := ∀ pose ∈ p.poses, pose.IsFinite

theorem restores (p : Path) : ofJson.Restores p.form.toJson p p.IsFinite := by
  obtain ⟨utime, pathLength, poses⟩ := p
  refine (Form.restores_record ?faultless
    (((Form.restores_optional ?utime Form.restores_time Form.time_ne_null).map.seq
      (Form.restores_required ?length (Form.restores_word pathLength))).seq
      (Form.restores_required ?poses (Form.restores_list Pose.restores poses)))).congr ?finite
  case faultless => exact (Fields.faultless_defaulting.map.seq Fields.faultless_required).seq Fields.faultless_required
  case finite => simp only [IsFinite, true_and]
  all_goals cases utime <;> rfl

end Path

/-! ### Sensors, control and listings -/

namespace LidarScan

def IsFinite (s : LidarScan) : Prop := (∀ x ∈ s.ranges, x.isFinite) ∧ ∀ x ∈ s.thetas, x.isFinite

theorem restores (s : LidarScan) : ofJson.Restores s.form.toJson s s.IsFinite := by
  obtain ⟨utime, numRanges, ranges, thetas⟩ := s
  refine (Form.restores_record ?faultless
    ((((Form.restores_optional ?utime Form.restores_time Form.time_ne_null).map.seq
      (Form.restores_optional ?count Form.restores_word Form.word_ne_null)).seq
      (Form.restores_required ?ranges (Form.restores_list Form.restores_single ranges))).seq
      (Form.restores_required ?thetas (Form.restores_list Form.restores_single thetas)))).congr ?finite
  case faultless =>
    exact ((Fields.faultless_defaulting.map.seq Fields.faultless_defaulting).seq Fields.faultless_required).seq
      Fields.faultless_required
  case finite => simp only [IsFinite, true_and]
  all_goals cases utime <;> cases numRanges <;> rfl

end LidarScan

theorem SlamReset.restores (r : SlamReset) : SlamReset.ofJson.Restores r.form.toJson r True := by
  refine (Form.restores_record ?_ (((Form.restores_required rfl (Decoder.restores_int32 r.mode)).map.seq
    (Form.restores_required rfl (Decoder.restores_boolean r.retainPose))).seq
    (Form.restores_required rfl (Decoder.restores_string r.mapFile)))).congr (by simp)
  exact (Fields.faultless_required.map.seq Fields.faultless_required).seq Fields.faultless_required

theorem ChannelHeader.restores (h : ChannelHeader) : ChannelHeader.ofJson.Restores h.form.toJson h True := by
  refine (Form.restores_record ?_ (((Form.restores_required rfl (Decoder.restores_string h.channel)).map.seq
    (Form.restores_defaulting rfl (Decoder.restores_string h.dtype))).seq
    (Form.restores_defaulting rfl (Decoder.restores_size h.queueSize)))).congr (by simp)
  exact (Fields.faultless_required.map.seq Fields.faultless_defaulting).seq Fields.faultless_defaulting

/-- A header is no string, so it is not taken for a bare name. -/
theorem ChannelListing.restores (l : ChannelListing) : ChannelListing.ofJson.Restores l.form.toJson l True := by
  intro r
  cases l with
  | name s =>
    change Except.ok (name s) = .ok r ↔ _
    rw [Except.ok.injEq, true_and, eq_comm]
  | header h =>
    have hread : ofJson h.form.toJson = .ok (header h) := by
      unfold ofJson
      rw [h.restores.ok trivial]
      rfl
    change ofJson h.form.toJson = .ok r ↔ _
    rw [hread, Except.ok.injEq, true_and, eq_comm]

/-- Every payload made into a document is read back as itself and as nothing else: where it has floats,
exactly if they are all finite. -/
theorem payloads_restored :
    (∀ p q : Pose, Pose.ofJson p.form.toJson = .ok q ↔ p.IsFinite ∧ q = p) ∧
    (∀ t u : Twist, Twist.ofJson t.form.toJson = .ok u ↔ t.IsFinite ∧ u = t) ∧
    (∀ p q : Path, Path.ofJson p.form.toJson = .ok q ↔ p.IsFinite ∧ q = p) ∧
    (∀ s r : LidarScan, LidarScan.ofJson s.form.toJson = .ok r ↔ s.IsFinite ∧ r = s) ∧
    (∀ r : SlamReset, SlamReset.ofJson r.form.toJson = .ok r) ∧
    (∀ h : ChannelHeader, ChannelHeader.ofJson h.form.toJson = .ok h) ∧
    ∀ listings : List ChannelListing,
      Decoder.list ChannelListing.ofJson (Form.list (listings.map ChannelListing.form)).toJson = .ok listings := by
  refine ⟨Pose.restores, Twist.restores, Path.restores, LidarScan.restores, fun r => r.restores.ok trivial,
    fun h => h.restores.ok trivial, ?_⟩
  intro listings
  exact (Form.restores_list ChannelListing.restores listings).ok fun _ _ => trivial

end RobotBridge
