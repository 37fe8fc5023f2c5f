import BitmapFont.Edit.Command
import BitmapFont.Font.Command
import BitmapFont.Main
import BitmapFont.Proofs.Edit.Chains
import BitmapFont.Proofs.Edit.Copying
import BitmapFont.Proofs.Edit.Course
import BitmapFont.Proofs.Edit.Pixels
import BitmapFont.Proofs.Edit.Pointwise
import BitmapFont.Proofs.Edit.Reachable
import BitmapFont.Proofs.Edit.Reversal
import BitmapFont.Proofs.Edit.Saving
import BitmapFont.Proofs.Edit.Spacing
import BitmapFont.Proofs.Font.Commands
import BitmapFont.Proofs.Font.Filling
import BitmapFont.Proofs.Glyph.Centering
import BitmapFont.Proofs.Glyph.Clamping
import BitmapFont.Proofs.Glyph.Inverting
import BitmapFont.Proofs.Glyph.Margins
import BitmapFont.Proofs.Glyph.Representation
import BitmapFont.Proofs.Glyph.Rows
import BitmapFont.Proofs.Glyph.Rowwise
import BitmapFont.Proofs.Glyph.Shifting
import BitmapFont.Proofs.Glyph.Slanting
import BitmapFont.Proofs.Glyph.Thickening
import BitmapFont.Proofs.Image.Partition
import BitmapFont.Proofs.Raster.Bearings
import BitmapFont.Proofs.Raster.Dependence
import BitmapFont.Proofs.Raster.Reports
import BitmapFont.Proofs.Stream.Layouts
import BitmapFont.Proofs.Stream.Locality
import BitmapFont.Proofs.Stream.RoundTrip
import BitmapFont.Proofs.Stream.Variants
import BitmapFont.Proofs.Text.Joining
import BitmapFont.Proofs.Text.Layout
import BitmapFont.Proofs.Text.Measuring
import BitmapFont.Raster.BoxEngine
import BitmapFont.Proofs.Raster.Collecting
import BitmapFont.Proofs.Font.Naming
import BitmapFont.Proofs.Name.Capitals
import BitmapFont.Proofs.Text.Printing
