import ChipEight.Proofs.Magnification

/-!
Drawing, clearing and rendering, mixed in any way. A rendering paints what the display holds at that
moment and nothing else, so it makes no difference what stood in the window before or how the
display came about, and the display does not notice that it was rendered.
-/

namespace ChipEight

inductive SceneAction where
  | draw (x y : Int) (sprite : List Int)
  | clear
  | render

def SceneAction.changesDisplay : SceneAction → Bool
  | render => false
  | _ => true

/-- A display and the window on which it is rendered. -/
structure Scene where
  display : Display
  screen : Screen

namespace Scene

def perform (traced : Bool) (scene : Scene) : SceneAction → Scene
  | .draw x y sprite =>
      { scene with display := (Display.draw x y sprite traced scene.display).state }
  | .clear => { scene with display := scene.display.clear }
  | .render => { scene with screen := scene.screen.render scene.display }

def after (traced : Bool) (scene : Scene) (actions : List SceneAction) : Scene :=
  actions.foldl (perform traced) scene

/-- A blank display, and a window that shows anything. -/
def initial (width height : Int) (screen : Screen) (pixels : Array Bool) : Scene where
  display := .blank width height
  screen := { screen with surface := { screen.surface with pixels := pixels } }

/-- Whatever a window shows at first and whatever is done before, rendering shows the display as it
is then, and does no more. -/
structure RendersExactly (traced : Bool) (width height scale : Int) (screen : Screen) : Prop where
  magnifies : ∀ pixels actions,
    let scene := (initial width height screen pixels).after traced actions
    scene.display.width = width ∧ scene.display.height = height ∧
      (scene.perform traced .render).screen.surface.Magnifies scale scene.display
  twice : ∀ pixels actions,
    (initial width height screen pixels).after traced (actions ++ [.render, .render])
      = (initial width height screen pixels).after traced (actions ++ [.render])
  afresh : ∀ pixels pixels' actions actions',
    let scene := (initial width height screen pixels).after traced actions
    let scene' := (initial width height screen pixels').after traced actions'
    scene.display.cells = scene'.display.cells →
      (scene.perform traced .render).screen = (scene'.perform traced .render).screen
  unnoticed : ∀ pixels actions,
    ((initial width height screen pixels).after traced actions).display
      = ((initial width height screen pixels).after traced
          (actions.filter SceneAction.changesDisplay)).display

/-! ### What every action keeps -/

/-- A scene has kept the sizes with which it began. -/
structure Sound (windows : WindowSystem) (width height scale : Int) (scene : Scene) : Prop where
  proper : scene.display.Proper
  width_eq : scene.display.width = width
  height_eq : scene.display.height = height
  windows_eq : scene.screen.windows = windows
  scale_eq : scene.screen.scale = scale
  surface_width : scene.screen.surface.width = (width * scale).toNat
  surface_height : scene.screen.surface.height = (height * scale).toNat

variable {windows : WindowSystem} {width height scale : Int} {scene : Scene} {traced : Bool}

/-- The window behind a rendering is made of the cells and of numbers that never change. -/
theorem Sound.render_eq (hscene : scene.Sound windows width height scale) :
    scene.screen.render scene.display =
      ⟨windows, scale, Screen.paintRows windows scale scene.display.rows
        (.filled (width * scale).toNat (height * scale).toNat false)⟩ := by
  obtain ⟨-, -, -, rfl, rfl, hwidth, hheight⟩ := hscene
  rw [← hwidth, ← hheight]
  rfl

theorem Sound.magnifies_render (hscene : scene.Sound windows width height scale)
    (hscale : 1 ≤ scale) (hkeep : windows.KeepsUpTo (max (width * scale) (height * scale))) :
    (scene.screen.render scene.display).surface.Magnifies scale scene.display := by
  obtain ⟨hproper, rfl, rfl, rfl, rfl, hwidth, hheight⟩ := hscene
  exact Screen.magnifies_render hproper hscale hkeep hwidth hheight

theorem Sound.perform (hscene : scene.Sound windows width height scale) (hscale : 1 ≤ scale)
    (hkeep : windows.KeepsUpTo (max (width * scale) (height * scale))) (traced : Bool)
    (action : SceneAction) : (scene.perform traced action).Sound windows width height scale := by
  cases action with
  | draw x y sprite =>
      obtain ⟨cells, hit, hturned, hdraw⟩ := Display.draw_turned x y sprite traced hscene.proper
      rw [Scene.perform, hdraw]
      exact { hscene with proper := { hturned.proper hscene.proper with } }
  | clear =>
      have hsize := (Display.size_clear hscene.proper).trans hscene.proper.size_eq
      exact { hscene with
        proper := ⟨hscene.proper.width_pos, hscene.proper.height_pos, hsize,
          Display.bits_clear scene.display⟩ }
  | render =>
      have hsized := (hscene.magnifies_render hscale hkeep).sized
      rw [hscene.width_eq, hscene.height_eq] at hsized
      exact { hscene with surface_width := hsized.width_eq, surface_height := hsized.height_eq }

theorem Sound.after (hscene : scene.Sound windows width height scale) (hscale : 1 ≤ scale)
    (hkeep : windows.KeepsUpTo (max (width * scale) (height * scale))) (traced : Bool)
    (actions : List SceneAction) :
    (scene.after traced actions).Sound windows width height scale := by
  induction actions generalizing scene with
  | nil => exact hscene
  | cons action rest ih => exact ih (hscene.perform hscale hkeep traced action)

theorem Sound.render_render (hscene : scene.Sound windows width height scale) (hscale : 1 ≤ scale)
    (hkeep : windows.KeepsUpTo (max (width * scale) (height * scale))) (traced : Bool) :
    (scene.perform traced .render).perform traced .render = scene.perform traced .render := by
  have hagain : (scene.perform traced .render).screen.render scene.display
      = scene.screen.render scene.display :=
    (hscene.perform hscale hkeep traced .render).render_eq.trans hscene.render_eq.symm
  exact congrArg (Scene.mk scene.display) hagain

/-- The display goes its way by the actions that change it. -/
theorem display_after_filter {scene' : Scene} (hdisplay : scene.display = scene'.display)
    (traced : Bool) (actions : List SceneAction) :
    (scene.after traced actions).display
      = (scene'.after traced (actions.filter SceneAction.changesDisplay)).display := by
  -- Two scenes, since a rendering takes the one on and leaves the other where it is.
  induction actions generalizing scene scene' with
  | nil => exact hdisplay
  | cons action rest ih =>
      cases action with
      | draw x y sprite => exact ih (by simp only [Scene.perform, hdisplay])
      | clear => exact ih (by simp only [Scene.perform, hdisplay])
      | render => exact ih hdisplay

/-- A new window of a faithful window system begins sound, whatever has been painted on it. -/
theorem sound_initial {screen : Screen}
    (hwindows : windows.Faithful (width * scale) (height * scale)) (hwidth : 1 ≤ width)
    (hheight : 1 ≤ height) (hscale : 1 ≤ scale)
    (hopened : Screen.open? windows width height scale = .ok screen) (pixels : Array Bool) :
    (initial width height screen pixels).Sound windows width height scale ∧
      windows.KeepsUpTo (max (width * scale) (height * scale)) := by
  obtain ⟨hshows, rfl, rfl, hkeep⟩ :=
    Screen.magnifies_opened hwindows hwidth hheight hscale hopened
  exact ⟨⟨Display.proper_blank hwidth hheight, rfl, rfl, rfl, rfl, hshows.sized.width_eq,
    hshows.sized.height_eq⟩, hkeep⟩

/-- At any scale, a window that a faithful window system has opened for a display renders it
exactly, through all that is drawn, cleared and rendered. -/
theorem renders_exactly {screen : Screen}
    (hwindows : windows.Faithful (width * scale) (height * scale)) (hwidth : 1 ≤ width)
    (hheight : 1 ≤ height) (hscale : 1 ≤ scale)
    (hopened : Screen.open? windows width height scale = .ok screen) (traced : Bool) :
    RendersExactly traced width height scale screen := by
  have hsound (pixels actions) :
      ((initial width height screen pixels).after traced actions).Sound
          windows width height scale ∧
        windows.KeepsUpTo (max (width * scale) (height * scale)) := by
    obtain ⟨hinitial, hkeep⟩ := sound_initial hwindows hwidth hheight hscale hopened pixels
    exact ⟨hinitial.after hscale hkeep traced actions, hkeep⟩
  refine ⟨fun pixels actions => ?_, fun pixels actions => ?_, ?_,
    fun pixels actions => display_after_filter rfl traced actions⟩
  · obtain ⟨hscene, hkeep⟩ := hsound pixels actions
    exact ⟨hscene.width_eq, hscene.height_eq, hscene.magnifies_render hscale hkeep⟩
  · obtain ⟨hscene, hkeep⟩ := hsound pixels actions
    rw [after, after, List.foldl_append, List.foldl_append]
    exact hscene.render_render hscale hkeep traced
  · intro pixels pixels' actions actions' scene scene' hcells
    have hscene : scene.Sound windows width height scale := (hsound pixels actions).1
    have hscene' : scene'.Sound windows width height scale := (hsound pixels' actions').1
    have hrows : scene.display.rows = scene'.display.rows := by
      simp only [Display.rows, hcells, hscene.width_eq, hscene.height_eq, hscene'.width_eq,
        hscene'.height_eq]
    calc
      scene.screen.render scene.display
          = ⟨windows, scale, Screen.paintRows windows scale scene.display.rows
              (.filled (width * scale).toNat (height * scale).toNat false)⟩ := hscene.render_eq
      _ = ⟨windows, scale, Screen.paintRows windows scale scene'.display.rows
              (.filled (width * scale).toNat (height * scale).toNat false)⟩ := by rw [hrows]
      _ = scene'.screen.render scene'.display := hscene'.render_eq.symm

/-- A display of three by two cells in a window that is all white at first. Of what was rendered
before the display was cleared, nothing is left. -/
theorem renders_exactly_redrawn :
    let screen : Screen := ⟨.boundless, 2, .filled 6 4 false⟩
    let redrawn := (initial 3 2 screen (.replicate 24 true)).after false
      [.draw 0 0 [0xE0, 0xE0], .render, .clear, .draw 2 1 [0x80], .render]
    WindowSystem.boundless.Faithful (3 * 2) (2 * 2) ∧
      Screen.open? .boundless 3 2 2 = .ok screen ∧
      RendersExactly false 3 2 2 screen ∧
      redrawn.screen.surface.rows
        = List.replicate 2 (List.replicate 6 false)
          ++ List.replicate 2 (List.replicate 4 false ++ List.replicate 2 true) := by
  intro screen redrawn
  have hwindows : WindowSystem.boundless.Faithful (3 * 2) (2 * 2) :=
    WindowSystem.faithful_boundless (3 * 2) (2 * 2)
  have hopened : Screen.open? .boundless 3 2 2 = .ok screen := rfl
  exact ⟨hwindows, hopened,
    renders_exactly hwindows (by decide) (by decide) (by decide) hopened false, by decide +kernel⟩

end Scene

end ChipEight
