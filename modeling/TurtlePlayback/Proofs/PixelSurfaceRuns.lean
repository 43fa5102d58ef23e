import TurtlePlayback.Canvas.PixelSurface
import TurtlePlayback.Proofs.ExceptResults
import TurtlePlayback.Proofs.PixelBytes
import TurtlePlayback.Proofs.PremultipliedPixels

namespace TurtlePlayback.Canvas

structure Layer.Fits (r : Resolution) (layer : Layer) : Prop where
  size : layer.size = r.pixelCount
  premultiplied : ∀ p ∈ layer, p.Premultiplied

/-- A rasterizer makes premultiplied images of the size it is asked for. -/
def Rasterizer.Fits (raster : Rasterizer) : Prop :=
  ∀ r ratio l, Viewport.isPositive ratio → Layer.Fits r (raster r ratio l)

namespace Layer

variable {r : Resolution} {layer : Layer} {p : Pixel}

theorem fits_clear (r : Resolution) : Fits r (Array.replicate r.pixelCount .clear) := by
  constructor
  · exact Array.size_replicate
  · intro p member
    rw [Array.eq_of_mem_replicate member]
    exact Pixel.clear_premultiplied

theorem Fits.map (fits : Fits r layer) {f : Pixel → Pixel}
    (kept : ∀ p, p.Premultiplied → (f p).Premultiplied) : Fits r (layer.map f) := by
  constructor
  · rw [Array.size_map]
    exact fits.size
  · intro p member
    obtain ⟨q, inside, rfl⟩ := Array.mem_map.mp member
    exact kept q (fits.premultiplied q inside)

theorem Fits.modify (fits : Fits r layer) {f : Pixel → Pixel}
    (kept : ∀ p, p.Premultiplied → (f p).Premultiplied) (i : Nat) : Fits r (layer.modify i f) := by
  constructor
  · rw [Array.size_modify]
    exact fits.size
  · intro p member
    obtain ⟨j, bound, rfl⟩ := Array.mem_iff_getElem.mp member
    rw [Array.getElem_modify]
    split
    · exact kept _ (fits.premultiplied _ (Array.getElem_mem _))
    · exact fits.premultiplied _ (Array.getElem_mem _)

theorem Fits.under (fits : Fits r layer) {top : Layer} (above : Fits r top) :
    Fits r (Array.zipWith Pixel.under layer top) := by
  constructor
  · rw [Array.size_zipWith, fits.size, above.size, Nat.min_self]
  · intro p member
    obtain ⟨i, bound, rfl⟩ := Array.mem_iff_getElem.mp member
    rw [Array.getElem_zipWith]
    exact (fits.premultiplied _ (Array.getElem_mem _)).under (above.premultiplied _ (Array.getElem_mem _))

theorem fold_keeps {α : Type} {P : α → Prop} (n : Nat) {f : (i : Nat) → i < n → α → α}
    (kept : ∀ i h x, P x → P (f i h x)) {x : α} (holds : P x) : P (Nat.fold n f x) := by
  induction n with
  | zero => exact holds
  | succ n ih =>
    rw [Nat.fold_succ]
    exact kept _ _ _ (ih fun i h => kept i _)

theorem Fits.paint (fits : Fits r layer) (s : Stroke) (above : p.Premultiplied) :
    Fits r (s.paint r p layer) := by
  simp only [Stroke.paint]
  refine fold_keeps _ (fun j _ layer fits => ?_) fits
  refine fold_keeps _ (fun i _ layer fits => ?_) fits
  exact iteInduction (fun _ => fits.modify (fun q below => below.under above) _) fun _ => fits

theorem Fits.draw (fits : Fits r layer) (ratio : Float) (c : DrawCmd) :
    Fits r (Layer.draw r ratio layer c) := by
  cases c with
  | fill c => exact fits.map fun q below => below.under (Pixel.premultiply_premultiplied _)
  | lines batch =>
    refine Array.foldl_induction (fun _ layer => Fits r layer) fits ?_
    intro i layer fits
    split
    · exact fits
    · split
      · exact fits.paint _ (Pixel.premultiply_premultiplied _)
      · exact fits

theorem ofDrawList_fits : Rasterizer.Fits ofDrawList := by
  intro r ratio l _
  exact Array.foldl_induction (fun _ layer => Fits r layer) (fits_clear r)
    fun i layer fits => fits.draw ratio _

end Layer

namespace PixelSurface

inductive Request
  | render (list : DrawList) (ratio : Float)
  | clear
  | resize (size : Resolution)

/-- A request that takes away what a surface of such a size shows. -/
def Request.wipes (r : Resolution) : Request → Bool
  | .render _ _ => false
  | .clear => true
  | .resize size => (checkSize size).isOk && size ≠ r

def after (raster : Rasterizer) (s : PixelSurface) : Request → PixelSurface
  | .render l ratio => (settle s (s.render raster l ratio)).2
  | .clear => s.clear
  | .resize r => (settle s (s.resize r)).2

def Valid (s : PixelSurface) : Prop :=
  Layer.Fits s.resolution s.pixels

def covered (s : PixelSurface) (layer : Layer) : PixelSurface :=
  { s with pixels := Array.zipWith Pixel.under s.pixels layer }

variable {raster : Rasterizer} {s s' : PixelSurface} {q : Request} {r : Resolution}

theorem blank_valid (r : Resolution) : (blank r).Valid :=
  Layer.fits_clear r

theorem create_valid (created : create r = .ok s) : s.Valid := by
  obtain ⟨_, _, rfl⟩ := map_ok.mp created
  exact blank_valid r

theorem Valid.clear_eq (valid : s.Valid) : s.clear = blank s.resolution := by
  have same : s.pixels.map (fun _ => Pixel.clear) = Array.replicate s.resolution.pixelCount .clear := by
    rw [← valid.size, Array.map_const']
  rw [clear, same]
  rfl

theorem Valid.render_eq (valid : s.Valid) (fits : raster.Fits) (l : DrawList) {ratio : Float}
    (positive : Viewport.isPositive ratio) : s.render raster l ratio =
      .ok (if l.isEmpty then s else s.covered (raster s.resolution ratio l)) := by
  by_cases empty : l.isEmpty
  · rw [render, if_pos empty, if_pos empty]
  · rw [render, if_neg empty, if_neg empty, if_pos positive, compose,
      if_pos (valid.size.trans (fits _ _ _ positive).size.symm)]
    rfl

/-- What a request can do: nothing, put a layer over the surface, or make it a blank one. -/
inductive Does (s : PixelSurface) (q : Request) : PixelSurface → Prop
  | nothing : Does s q s
  | covers {layer : Layer} (fits : layer.Fits s.resolution) : Does s q (s.covered layer)
  | wipes (r : Resolution) (lost : q.wipes s.resolution = true) : Does s q (blank r)

theorem Valid.does (valid : s.Valid) (fits : raster.Fits) (q : Request) :
    Does s q (s.after raster q) := by
  cases q with
  | render l ratio =>
    by_cases positive : Viewport.isPositive ratio
    · rw [after, valid.render_eq fits l positive]
      split
      · exact .nothing
      · exact .covers (fits _ ratio l positive)
    · rw [after, render, if_neg positive]
      split <;> exact .nothing
  | clear =>
    rw [after, valid.clear_eq]
    exact .wipes _ rfl
  | resize r =>
    rw [after, resize]
    -- A size that is refused leaves the surface alone, and so does the one that it has.
    cases checked : checkSize r with
    | error f => exact .nothing
    | ok _ =>
      by_cases same : r = s.resolution
      · simp only [Except.map, if_pos same]
        exact .nothing
      · simp only [Except.map, if_neg same]
        exact .wipes r (by simp [Request.wipes, checked, same, Except.isOk, Except.toBool])

theorem Does.valid (does : Does s q s') (valid : s.Valid) : s'.Valid := by
  cases does with
  | nothing => exact valid
  | covers fits => exact valid.under fits
  | wipes r _ => exact blank_valid r

theorem Does.solid (does : Does s q s') (valid : s.Valid)
    (kept : q.wipes s.resolution = false) : s'.resolution = s.resolution ∧
      ∀ (i : Nat) (p : Pixel), s.pixels[i]? = some p → p.a = 255 →
        ∃ p' : Pixel, s'.pixels[i]? = some p' ∧ p'.a = 255 := by
  cases does with
  | nothing => exact ⟨rfl, fun i p here solid => ⟨p, here, solid⟩⟩
  | covers fits =>
    refine ⟨rfl, fun i p here solid => ?_⟩
    obtain ⟨inside, rfl⟩ := Array.getElem?_eq_some_iff.mp here
    refine ⟨_, Array.getElem?_eq_getElem ?_, ?_⟩
    · rw [covered, Array.size_zipWith, fits.size, ← valid.size, Nat.min_self]
      exact inside
    · simp only [covered, Array.getElem_zipWith]
      exact Pixel.under_solid solid
  | wipes r lost => exact absurd (lost.symm.trans kept) Bool.noConfusion

theorem Valid.run (fits : raster.Fits) (requests : List Request) (valid : s.Valid) :
    (requests.foldl (after raster) s).Valid := by
  induction requests generalizing s with
  | nil => exact valid
  | cons q requests ih => exact ih ((valid.does fits q).valid valid)

theorem Valid.run_solid (fits : raster.Fits) {requests : List Request} (valid : s.Valid)
    (kept : ∀ q ∈ requests, q.wipes s.resolution = false) {i : Nat} {p : Pixel}
    (here : s.pixels[i]? = some p) (solid : p.a = 255) :
    ∃ p' : Pixel, (requests.foldl (after raster) s).pixels[i]? = some p' ∧ p'.a = 255 := by
  induction requests generalizing s p with
  | nil => exact ⟨p, here, solid⟩
  | cons q requests ih =>
    rw [List.forall_mem_cons] at kept
    have does := valid.does fits q
    obtain ⟨same, solids⟩ := does.solid valid kept.1
    obtain ⟨p', here', solid'⟩ := solids i p here solid
    exact ih (does.valid valid) (by rw [same]; exact kept.2) here' solid'

theorem Valid.lossless (valid : s.Valid) :
    bytesOf (s.snapshot.straight.pixels.map Pixel.premultiply) = s.snapshot.data := by
  have pixels : s.snapshot.pixels = s.pixels := pixels_bytesOf rfl
  have straight : s.snapshot.straight.pixels = s.pixels.map Pixel.unpremultiply := by
    apply pixels_bytesOf
    rw [← pixels]
    rfl
  have back : (s.pixels.map Pixel.unpremultiply).map Pixel.premultiply = s.pixels := by
    rw [Array.map_map, Array.map_congr_left (g := id), Array.map_id]
    exact fun p member => (valid.premultiplied p member).premultiply_unpremultiply
  rw [straight, back]
  rfl

theorem Valid.covered_bytes (valid : s.Valid) {layer : Layer} (fits : layer.Fits s.resolution) :
    overBytes s.snapshot.data.data.toList (bytesOf layer).data.toList =
      .ok (s.covered layer).snapshot.data.data.toList := by
  have size : s.pixels.toList.length = layer.toList.length := by
    rw [Array.length_toList, Array.length_toList, valid.size, fits.size]
  rw [snapshot, snapshot, toList_bytesOf, toList_bytesOf, toList_bytesOf, overBytes_flatMap, if_pos size]
  simp only [covered, Array.toList_zipWith]

/-- Whatever a surface is asked for, it keeps to its size and stays a premultiplied image. It takes
every drawing; no channel runs over where a layer is put over it or where its colors are divided by
alpha; what is solid stays so until it is wiped; and a picture of it in straight colors has lost
nothing. -/
theorem surface_premultiplied (fits : raster.Fits) {s₀ : PixelSurface} (created : create r = .ok s₀)
    (requests : List Request) :
    let s := requests.foldl (after raster) s₀
    s.snapshot.data.size = 4 * (s.resolution.width * s.resolution.height) ∧
    (∀ p ∈ s.pixels, p.r ≤ p.a ∧ p.g ≤ p.a ∧ p.b ≤ p.a) ∧
    (∀ l ratio, Viewport.isPositive ratio →
      ∃ s', s.render raster l ratio = .ok s' ∧ (l.isEmpty = false →
        overBytes s.snapshot.data.data.toList (bytesOf (raster s.resolution ratio l)).data.toList =
          .ok s'.snapshot.data.data.toList)) ∧
    (∀ l ratio, Viewport.isPositive ratio → ∀ (i : Nat) (dst src : Pixel),
      s.pixels[i]? = some dst → (raster s.resolution ratio l)[i]? = some src →
      ∀ channel ∈ [Pixel.r, Pixel.g, Pixel.b, Pixel.a],
        (channel src).toNat + Pixel.scale (channel dst).toNat (255 - src.a.toNat) ≤ 255 ∧
        (channel (dst.under src)).toNat =
          (channel src).toNat + Pixel.scale (channel dst).toNat (255 - src.a.toNat)) ∧
    (∀ p ∈ s.pixels, p.a ≠ 0 → ∀ channel ∈ [Pixel.r, Pixel.g, Pixel.b],
      ((channel p).toNat * 255 + p.a.toNat / 2) / p.a.toNat ≤ 255 ∧
      (channel p.unpremultiply).toNat =
        ((channel p).toNat * 255 + p.a.toNat / 2) / p.a.toNat) ∧
    (∀ more : List Request, (∀ q ∈ more, q.wipes s.resolution = false) →
      ∀ (i : Nat) (p : Pixel), s.pixels[i]? = some p → p.a = 255 →
        ∃ p' : Pixel, (more.foldl (after raster) s).pixels[i]? = some p' ∧ p'.a = 255) ∧
    bytesOf (s.snapshot.straight.pixels.map Pixel.premultiply) = s.snapshot.data := by
  intro s
  have valid : s.Valid := (create_valid created).run fits requests
  refine ⟨?_, fun p member => ?_, fun l ratio positive => ?_, ?_, ?_, ?_, valid.lossless⟩
  · rw [snapshot, size_bytesOf, valid.size]
    rfl
  · have h := valid.premultiplied p member
    exact ⟨h.red, h.green, h.blue⟩
  · refine ⟨_, valid.render_eq fits l positive, fun some_list => ?_⟩
    rw [some_list]
    exact valid.covered_bytes (fits _ ratio l positive)
  · intro l ratio positive i dst src _ above channel member
    have layer := (fits _ ratio l positive).premultiplied src (Array.mem_of_getElem? above)
    exact ⟨layer.fits dst member, layer.toNat_under dst member⟩
  · intro p member visible channel color
    have whole := valid.premultiplied p member
    exact ⟨whole.unclipped visible (List.mem_append_left [Pixel.a] color),
      whole.toNat_unpremultiply visible color⟩
  · intro more kept i p here solid
    exact valid.run_solid fits kept here solid

theorem surface_premultiplied_fill :
    let list : DrawList := #[.fill .white]
    let s := [.render list 1.0, .resize ⟨1, 3⟩].foldl (after Layer.ofDrawList) (blank ⟨2, 1⟩)
    create ⟨2, 1⟩ = .ok (blank ⟨2, 1⟩) ∧ s.snapshot.data.size = 12 ∧
      (∃ s', s.render Layer.ofDrawList list 1.0 = .ok s') ∧
      bytesOf (s.snapshot.straight.pixels.map Pixel.premultiply) = s.snapshot.data := by
  intro list s
  have created : create ⟨2, 1⟩ = .ok (blank ⟨2, 1⟩) := rfl
  obtain ⟨size, -, drawn, -, -, -, lossless⟩ :=
    surface_premultiplied Layer.ofDrawList_fits created [.render list 1.0, .resize ⟨1, 3⟩]
  obtain ⟨s', ok, -⟩ := drawn list 1.0 (by decide +kernel)
  have resolution : s.resolution = ⟨1, 3⟩ := by decide +kernel
  have twelve := congrArg (fun r : Resolution => 4 * (r.width * r.height)) resolution
  exact ⟨created, size.trans twelve, ⟨s', ok⟩, lossless⟩

end PixelSurface

end TurtlePlayback.Canvas
