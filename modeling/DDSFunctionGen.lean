import DDSFunctionGen.Firmware.ConversionRanges
import DDSFunctionGen.Firmware.DelayWait
import DDSFunctionGen.Firmware.EncoderCount
import DDSFunctionGen.Firmware.OutputLevel
import DDSFunctionGen.Firmware.WaveTablesKept
import DDSFunctionGen.Fpga.KeypadReports
import DDSFunctionGen.Fpga.KeypadScan
import DDSFunctionGen.Fpga.LcdDmaTransfer
import DDSFunctionGen.Fpga.OutputCode
import DDSFunctionGen.Fpga.PhaseAdvance
import DDSFunctionGen.Fpga.PhaseOrbit
import DDSFunctionGen.Fpga.Pwm
import DDSFunctionGen.Fpga.SpiDmaTransfer
import DDSFunctionGen.Lcd.Clipping
import DDSFunctionGen.Lcd.Line
import DDSFunctionGen.Lcd.NumberText
import DDSFunctionGen.Menu.DirectoryPath
import DDSFunctionGen.Menu.FileSelection
import DDSFunctionGen.Menu.HighlightedValue
import DDSFunctionGen.Menu.InitialisedHandlers
import DDSFunctionGen.Menu.InputsKept
import DDSFunctionGen.Menu.MeasuringUnits
import DDSFunctionGen.Menu.PageReturn
import DDSFunctionGen.Menu.SweepRange
import DDSFunctionGen.Menu.SweepRestore
import DDSFunctionGen.Menu.TypedNumber
import DDSFunctionGen.Player.Looping
import DDSFunctionGen.Player.OwnAudio
import DDSFunctionGen.Player.StereoOrder
import DDSFunctionGen.SdCard.SectorAddress
import DDSFunctionGen.Lcd.Fonts
import DDSFunctionGen.Lcd.Text
import DDSFunctionGen.Lcd.FontReads
import DDSFunctionGen.Lcd.TextPicture
import DDSFunctionGen.Arithmetic.PackedEntries
import DDSFunctionGen.Fat.Drive
import DDSFunctionGen.Fat.Volume
import DDSFunctionGen.Fat.CardAccess
import DDSFunctionGen.Fat.CardRuns
import DDSFunctionGen.Fat.MountedCard
import DDSFunctionGen.Fat.Playback
import DDSFunctionGen.Fat.Refills
