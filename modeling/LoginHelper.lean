/- Unit: LoginHelper
   source: src/loginhelper
   digest: The login helper plugin, the searches and libraries it rests on, and what it guarantees. -/

import LoginHelper.PatternText
import LoginHelper.ServerNumbers
import LoginHelper.ServerMemory
import LoginHelper.HookClosure
import LoginHelper.Credentials
import LoginHelper.CommandLineLogin
import LoginHelper.AutoLogin
import LoginHelper.SecretRejection
import LoginHelper.SecretPresentation
import LoginHelper.SecretScrubbing
import LoginHelper.PinSubmission
import LoginHelper.OtpFreshness
import LoginHelper.Resubmission
import LoginHelper.VersionSafety
import LoginHelper.VersionLookup
import LoginHelper.VersionExtent
import LoginHelper.Pe.LoadedModules
import LoginHelper.Pe.HeaderFormat
import LoginHelper.Pe.ModuleNames
import LoginHelper.GameImage
import LoginHelper.Switches
import LoginHelper.Transparency
import LoginHelper.Footprint
import LoginHelper.PanelGuard
import LoginHelper.WriteOnce
import LoginHelper.Exceptions
import LoginHelper.Secrecy
import LoginHelper.StoppedRuns
import LoginHelper.CppTotp.Base32Writer
import LoginHelper.CppTotp.DigitCounts
import LoginHelper.CppTotp.Hex
import LoginHelper.Ntapi.Affixes
import LoginHelper.Xorstr
