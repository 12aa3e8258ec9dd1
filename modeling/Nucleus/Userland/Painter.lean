import Nucleus.Userland.Turn

namespace Nucleus

structure Easel where
  width : UInt32
  height : UInt32
  deriving DecidableEq, Repr

inductive Painter
  | measuring
  | measured
  | cleared (easel : Easel)
  | lettering (easel : Easel)
  | titled (easel : Easel) (lineHeight : UInt32)
  /-- About to erase the bar where it is. -/
  | sweeping (easel : Easel) (x : UInt32) (round : Nat)
  | erased (easel : Easel) (x : UInt32) (round : Nat)
  | painted (easel : Easel) (x : UInt32) (round : Nat)
  | marked (easel : Easel)
  | returned
  deriving DecidableEq, Repr

namespace Easel

def barWidth (easel : Easel) : UInt32 := easel.width / 8

def middle (easel : Easel) : UInt32 := easel.height / 2

/-- The bar's next place; it starts over when it would leave the screen. -/
def advance (easel : Easel) (x : UInt32) : UInt32 :=
  (x + 8) % (easel.width - easel.barWidth)

end Easel

namespace Painter

def background : UInt32 := 0x101830

def barColour : UInt32 := 0xf0a030

def textColour : UInt32 := 0xffffff

def rounds : Nat := 400

def barHeight : UInt32 := 24

def turn? (space : Workspace) : Painter → Option (Turn Painter)
  | measuring => some (space.call .screenSize measured)
  | measured =>
      let (width, height) := Reply.size space.reply
      some (if width = 0 ∨ height = 0 then
          space.say ["painter: no display, exiting"] returned
        else space.call (.clear background) (cleared ⟨width, height⟩))
  | cleared easel => some (space.call (.charSize 2) (lettering easel))
  | lettering easel =>
      let (_, lineHeight) := Reply.size space.reply
      some (space.callWith (Utf8.encode "Vesper".toList)
        (fun address length =>
          .drawString 16 16 address length 2 textColour)
        (titled easel lineHeight))
  | titled easel lineHeight =>
      let y := 16 + lineHeight + 4
      some (space.call (.drawLine 16 y (easel.width - 16) y textColour)
        (sweeping easel 0 0))
  | sweeping easel x round =>
      some (if round < rounds then
          space.call
            (.fillRect x easel.middle easel.barWidth barHeight background)
            (erased easel (easel.advance x) round)
        else
          space.call (.drawChar 16 (easel.height - 32) 0x23 1 barColour)
            (marked easel))
  | erased easel x round =>
      some (space.call
        (.fillRect x easel.middle easel.barWidth barHeight barColour)
        (painted easel x round))
  | painted easel x round =>
      some (space.call (.sleep 16) (sweeping easel x (round + 1)))
  | marked easel =>
      some (space.call
        (.drawPixel (easel.width - 1) (easel.height - 1) textColour) returned)
  | returned => none

end Painter

end Nucleus
